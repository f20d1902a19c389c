import DataApi.Proofs.Json.Record
import DataApi.Schema.Codec

/-!
# Schemas in other layouts

The objects of a schema, of its fields and of the members of its associations may list their
entries in any order and among entries that the type does not know. Each of these types is read by
a record whose names fill different parts of its draft, so that at every level the value does not
depend on the layout; on the way up, the value of the member that holds the level below is related
to another layout of it, and every other member is the same.
-/

namespace DataApi

namespace Association

def Draft.put (name : String) (new d : Draft) : Draft :=
  match name with
  | "model" => { d with model := new.model }
  | "associatedKeys" => { d with keys := new.keys }
  | "targetNames" => { d with targets := new.targets }
  | _ => d

theorem Draft.put_comm {name other : String} (hne : name ≠ other) (new next d : Draft) :
    put name new (put other next d) = put other next (put name new d) := by
  unfold put
  split <;> split <;> first | rfl | exact absurd rfl hne

theorem Draft.addModel_eq (d : Draft) (j : Json) :
    d.addModel j = (Draft.addModel {} j).map fun new => put "model" new d := by
  unfold addModel
  cases j.asString <;> rfl

theorem Draft.addKeys_eq (d : Draft) (j : Json) :
    d.addKeys j = (Draft.addKeys {} j).map fun new => put "associatedKeys" new d := by
  unfold addKeys
  cases j.asList Json.asString <;> rfl

theorem Draft.addTargets_eq (d : Draft) (j : Json) :
    d.addTargets j = (Draft.addTargets {} j).map fun new => put "targetNames" new d := by
  unfold addTargets
  cases j.asList Json.asString <;> rfl

theorem belongsToRecord_placed : belongsToRecord.Placed Draft.put where
  add_of_not_mem hname d j := by
    simp only [belongsToRecord] at hname ⊢
    split <;> simp_all
  add_of_mem hname d j := by
    simp only [belongsToRecord, List.mem_cons, List.not_mem_nil, or_false] at hname
    obtain rfl | rfl | rfl := hname
    · exact d.addModel_eq j
    · exact d.addKeys_eq j
    · exact d.addTargets_eq j
  put_comm := Draft.put_comm

theorem hasOneRecord_placed : hasOneRecord.Placed Draft.put where
  add_of_not_mem hname d j := by
    simp only [hasOneRecord] at hname ⊢
    split <;> simp_all
  add_of_mem hname d j := by
    simp only [hasOneRecord, List.mem_cons, List.not_mem_nil, or_false] at hname
    obtain rfl | rfl := hname
    · exact d.addModel_eq j
    · exact d.addKeys_eq j
  put_comm := Draft.put_comm

theorem hasManyRecord_placed : hasManyRecord.Placed Draft.put where
  add_of_not_mem hname d j := by
    simp only [hasManyRecord] at hname ⊢
    split <;> simp_all
  add_of_mem hname d j := by
    obtain rfl := List.mem_singleton.1 hname
    exact d.addModel_eq j
  put_comm := Draft.put_comm

/-- The layouts of an association: the object under the name of the variant has its entries in
another order and among other entries, with the same values. -/
inductive Relaid : Json → Json → Prop
  | belongsTo {es fs : List (String × Json)}
      (h : RelaidEntries belongsToRecord.names (fun _ => Eq) es fs) :
      Relaid (.single "belongsTo" (.object es)) (.single "belongsTo" (.object fs))
  | hasOne {es fs : List (String × Json)}
      (h : RelaidEntries hasOneRecord.names (fun _ => Eq) es fs) :
      Relaid (.single "hasOne" (.object es)) (.single "hasOne" (.object fs))
  | hasMany {es fs : List (String × Json)}
      (h : RelaidEntries hasManyRecord.names (fun _ => Eq) es fs) :
      Relaid (.single "hasMany" (.object es)) (.single "hasMany" (.object fs))

theorem ofJson_of_relaid {j k : Json} (hrelaid : Relaid j k) {a : Association}
    (h : ofJson j = .ok a) : ofJson k = .ok a := by
  cases hrelaid with
  | belongsTo hentries =>
      exact belongsToRecord_placed.ofEntries_of_relaid (Record.respects_eq _) hentries h
  | hasOne hentries =>
      exact hasOneRecord_placed.ofEntries_of_relaid (Record.respects_eq _) hentries h
  | hasMany hentries =>
      exact hasManyRecord_placed.ofEntries_of_relaid (Record.respects_eq _) hentries h

end Association

namespace FieldType

/-- The layouts of the type of a field: those of the association of a model, and for every other
type the one it has. -/
inductive Relaid : Json → Json → Prop
  | same (j : Json) : Relaid j j
  | model {j k : Json} (h : Association.Relaid j k) :
      Relaid (.single "model" j) (.single "model" k)

theorem ofJson_model (j : Json) :
    ofJson (.single "model" j) = (do return .model (← Association.ofJson j)) := rfl

theorem ofJson_of_relaid {j k : Json} (hrelaid : Relaid j k) {t : FieldType}
    (h : ofJson j = .ok t) : ofJson k = .ok t := by
  cases hrelaid with
  | same j => exact h
  | model hassociation =>
      rw [ofJson_model, bind_eq_ok_iff] at h ⊢
      obtain ⟨a, ha, ht⟩ := h
      exact ⟨a, Association.ofJson_of_relaid hassociation ha, ht⟩

end FieldType

namespace Field

def Draft.put (name : String) (new d : Draft) : Draft :=
  match name with
  | "name" => { d with name := new.name }
  | "type" => { d with type := new.type }
  | "required" => { d with required := new.required }
  | "readOnly" => { d with readOnly := new.readOnly }
  | _ => d

theorem Draft.put_comm {name other : String} (hne : name ≠ other) (new next d : Draft) :
    put name new (put other next d) = put other next (put name new d) := by
  unfold put
  split <;> split <;> first | rfl | exact absurd rfl hne

theorem record_placed : record.Placed Draft.put where
  add_of_not_mem hname d j := by
    simp only [record] at hname ⊢
    split <;> simp_all
  add_of_mem hname d j := by
    simp only [record, List.mem_cons, List.not_mem_nil, or_false] at hname
    obtain rfl | rfl | rfl | rfl := hname <;> simp only [record]
    · cases j.asString <;> rfl
    · cases FieldType.ofJson j <;> rfl
    · cases j.asBool <;> rfl
    · cases j.asBool <;> rfl
  put_comm := Draft.put_comm

inductive RelaidMember : String → Json → Json → Prop
  | same (name : String) (j : Json) : RelaidMember name j j
  | type {j k : Json} (h : FieldType.Relaid j k) : RelaidMember "type" j k

theorem record_respects : record.Respects RelaidMember := by
  rintro ⟨name, j⟩ ⟨_, k⟩ ⟨rfl, hmember⟩ d d' h
  cases hmember with
  | same => exact h
  | type htype =>
      obtain ⟨t, ht, hd'⟩ := bind_eq_ok_iff.1 h
      exact bind_eq_ok_iff.2 ⟨t, FieldType.ofJson_of_relaid htype ht, hd'⟩

def Relaid : Json → Json → Prop := record.Relaid RelaidMember

theorem ofJson_of_relaid {j k : Json} (hrelaid : Relaid j k) {f : Field}
    (h : ofJson j = .ok f) : ofJson k = .ok f :=
  record_placed.ofJson_of_relaid record_respects hrelaid h

end Field

namespace Schema

def Draft.put (name : String) (new d : Draft) : Draft :=
  match name with
  | "name" => { d with name := new.name }
  | "pluralName" => { d with plural := new.plural }
  | "primaryKey" => { d with primaryKey := new.primaryKey }
  | "fields" => { d with fields := new.fields }
  | _ => d

theorem Draft.put_comm {name other : String} (hne : name ≠ other) (new next d : Draft) :
    put name new (put other next d) = put other next (put name new d) := by
  unfold put
  split <;> split <;> first | rfl | exact absurd rfl hne

theorem record_placed : record.Placed Draft.put where
  add_of_not_mem hname d j := by
    simp only [record] at hname ⊢
    split <;> simp_all
  add_of_mem hname d j := by
    simp only [record, List.mem_cons, List.not_mem_nil, or_false] at hname
    obtain rfl | rfl | rfl | rfl := hname <;> simp only [record]
    · cases j.asString <;> rfl
    · cases j.asOption Json.asString <;> rfl
    · cases PrimaryKey.ofJson j <;> rfl
    · cases j.asList Field.ofJson <;> rfl
  put_comm := Draft.put_comm

inductive RelaidMember : String → Json → Json → Prop
  | same (name : String) (j : Json) : RelaidMember name j j
  | fields {items others : List Json} (h : List.Forall₂ Field.Relaid items others) :
      RelaidMember "fields" (.list items) (.list others)

theorem record_respects : record.Respects RelaidMember := by
  rintro ⟨name, j⟩ ⟨_, k⟩ ⟨rfl, hmember⟩ d d' h
  cases hmember with
  | same => exact h
  | fields hitems =>
      obtain ⟨fields, hfields, hd'⟩ := bind_eq_ok_iff.1 h
      have hothers := mapM_eq_ok_of_forall₂
        (hitems.imp fun _ _ hfield _ hf => Field.ofJson_of_relaid hfield hf) hfields
      exact bind_eq_ok_iff.2 ⟨fields, hothers, hd'⟩

/-- The layouts of a schema: the entries of its object, of the objects of its fields and of the
objects that hold the members of an association stand in any order and among entries that the type
does not know. -/
def Relaid : Json → Json → Prop := record.Relaid RelaidMember

/-- A schema is read alike from every layout. -/
theorem ofJson_independent_of_layout {j k : Json} (hrelaid : Relaid j k) {s : Schema}
    (h : ofJson j = .ok s) : ofJson k = .ok s :=
  record_placed.ofJson_of_relaid record_respects hrelaid h

def teamMembership : Schema where
  name := "Membership"
  fields := [{ name := "team", type := .model (.belongsTo "Team" ["id"] ["teamID"]) }]

def teamMembers : List (String × Json) :=
  [("model", .string "Team"), ("associatedKeys", .strings ["id"]),
    ("targetNames", .strings ["teamID"])]

def teamField (members : List (String × Json)) : List (String × Json) :=
  [("name", .string "team"), ("type", .single "model" (.single "belongsTo" (.object members)))]

def membershipMembers (field : List (String × Json)) : List (String × Json) :=
  [("name", .string "Membership"), ("primaryKey", .string "default"),
    ("fields", .list [.object field])]

def commentedMembership : List (String × Json) :=
  let members := ("comment", .null) :: teamMembers.reverse
  let field := ("comment", .string "the team") :: (teamField members).reverse
  ("comment", .list []) :: (membershipMembers field).reverse

/-- The comments and the order of the members make no difference. -/
theorem ofJson_commentedMembership :
    Relaid (.object (membershipMembers (teamField teamMembers))) (.object commentedMembership) ∧
      ofJson (.object (membershipMembers (teamField teamMembers))) = .ok teamMembership ∧
      ofJson (.object commentedMembership) = .ok teamMembership := by
  have hteam : RelaidEntries Association.belongsToRecord.names (fun _ => Eq) teamMembers
      (("comment", .null) :: teamMembers.reverse) := by
    refine ⟨by decide, [_], teamMembers, .cons _ (List.reverse_perm _), by decide, ?_⟩
    exact List.forall₂_same.2 fun _ _ => ⟨rfl, rfl⟩
  have hfield : RelaidEntries Field.record.names Field.RelaidMember (teamField teamMembers)
      (("comment", .string "the team") ::
        (teamField (("comment", .null) :: teamMembers.reverse)).reverse) := by
    refine ⟨by decide, [_], teamField _, .cons _ (List.reverse_perm _), by decide, ?_⟩
    exact .cons ⟨rfl, .same _ _⟩ (.cons ⟨rfl, .type (.model (.belongsTo hteam))⟩ .nil)
  have hschema : Relaid (.object (membershipMembers (teamField teamMembers)))
      (.object commentedMembership) := by
    refine .object ⟨by decide, [_], membershipMembers _, .cons _ (List.reverse_perm _),
      by decide, ?_⟩
    exact .cons ⟨rfl, .same _ _⟩ (.cons ⟨rfl, .same _ _⟩
      (.cons ⟨rfl, .fields (.cons (.object hfield) .nil)⟩ .nil))
  have hread : ofJson (.object (membershipMembers (teamField teamMembers))) = .ok teamMembership :=
    rfl
  exact ⟨hschema, hread, ofJson_independent_of_layout hschema hread⟩

end Schema

end DataApi
