import DataApi.Request
import DataApi.Schema.Codec
import DataApi.Json.Reader
import DataApi.Json.Writer
import DataApi.Storage.ObjectKey
import DataApi.Proofs.Document.Registration
import DataApi.Proofs.Build.Outline
import DataApi.Proofs.Document.Reader
import DataApi.Proofs.Document.RoundTrip
import DataApi.Proofs.Build.DataIndependence
import DataApi.Proofs.Predicate.Meaning
import DataApi.Proofs.Build.Signature
import DataApi.Proofs.Mutation.Key
import DataApi.Proofs.Predicate.Recovery
import DataApi.Proofs.Build.CompleteKey
import DataApi.Proofs.Build.InputType
import DataApi.Proofs.Build.FirstFailure
import DataApi.Proofs.Build.CollisionPolicies
import DataApi.Proofs.Build.Collisions
import DataApi.Proofs.Build.Typing
import DataApi.Proofs.Build.SingleOperation
import DataApi.Proofs.Request.Outcome
import DataApi.Proofs.Build.Commuting
import DataApi.Proofs.Build.Replacement
import DataApi.Proofs.Schema.RoundTrip
import DataApi.Proofs.Json.Record
import DataApi.Proofs.Schema.Layout
import DataApi.Proofs.Build.Typename
import DataApi.Proofs.Storage.KeySpace
import DataApi.Proofs.Mutation.Contribution
import DataApi.Proofs.Mutation.Input
import DataApi.Proofs.Mutation.Agreement
import DataApi.Proofs.Mutation.Stored
import DataApi.Proofs.Mutation.Normalization
import DataApi.Proofs.Predicate.FirstError
import DataApi.Proofs.Predicate.Chain
import DataApi.Proofs.Predicate.OperandOrder
import DataApi.Proofs.Document.Braces
import DataApi.Proofs.Document.Layout
import DataApi.Proofs.Document.Merging
import DataApi.Proofs.Build.KeyIdentifiers
import DataApi.Proofs.Storage.Precedence
import DataApi.Proofs.Document.Staging
