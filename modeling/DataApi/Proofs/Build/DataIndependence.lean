import DataApi.Document.Text
import DataApi.Proofs.Build.Signature
import Mathlib.Data.List.Forall2

/-!
# The text does not depend on the data

Two decorators have the same shape when they differ in data only: instances, identifiers, values in
predicates, the size and the token of a page. What decorators of one shape declare has the same
names and types, so lists of decorators that agree in shape position by position declare the same
signatures (`signatures_registrations_eq`). The text of a document is written from its kind, its
name, its selection set and the signatures of its variables, and from nothing else, so two documents
that are built from such lists have the same text.
-/

namespace DataApi

namespace Decorator

/-- Two decorators differ in data only. Predicates must agree in whether they restrict anything, and
pages in what is set of them. -/
inductive SameShape : Decorator → Decorator → Prop where
  | directive (op : Operation) : SameShape (.directive op) (.directive op)
  | model (m n : Instance) (kind : MutationKind) : SameShape (.model m kind) (.model n kind)
  | delete (m n : Instance) : SameShape (.modelId (.delete m)) (.modelId (.delete n))
  | byId (id other : String) : SameShape (.modelId (.byId id)) (.modelId (.byId other))
  | byKey (ids others : OrderedMap String) :
      SameShape (.modelId (.byKey ids)) (.modelId (.byKey others))
  | noFilter (p q : Predicate) (hp : p.filter? = .ok none) (hq : q.filter? = .ok none) :
      SameShape (.filter p) (.filter q)
  | someFilter (p q : Predicate) (f g : Json) (hp : p.filter? = .ok (some f))
      (hq : q.filter? = .ok (some g)) : SameShape (.filter p) (.filter q)
  | pagination (page other : Page) (hlimit : page.limit.isSome = other.limit.isSome)
      (htoken : page.nextToken.isSome = other.nextToken.isSome) :
      SameShape (.pagination page) (.pagination other)

variable {s : Schema} {kind : OperationKind} {op? : Option Operation}

theorem SameShape.operation?_eq {a b : Decorator} (h : SameShape a b) :
    a.operation? = b.operation? := by
  cases h <;> rfl

theorem SameShape.signature_eq {a b : Decorator} (h : SameShape a b) :
    a.signature s kind op? = b.signature s kind op? := by
  cases h with
  | directive op => rfl
  | model m n how => rfl
  | delete m n => rfl
  | byId id other => rfl
  | byKey ids others => rfl
  | noFilter p q hp hq => simp only [signature, hp, hq]
  | someFilter p q f g hp hq => simp only [signature, hp, hq]
  | pagination page other hlimit htoken =>
      rw [signature, signature, map_eq_of_isSome_eq hlimit, map_eq_of_isSome_eq htoken]

theorem SameShape.signatures_eq {a b : Decorator} (h : SameShape a b)
    {l r : List (String × Variable)} (ha : a.declarationsAfter s kind op? = .ok l)
    (hb : b.declarationsAfter s kind op? = .ok r) : signatures l = signatures r := by
  rw [signatures_declarationsAfter ha, signatures_declarationsAfter hb, h.signature_eq]

theorem operations_eq_of_sameShape {as bs : List Decorator} (h : List.Forall₂ SameShape as bs) :
    as.filterMap operation? = bs.filterMap operation? := by
  induction h with
  | nil => rfl
  | cons hshape _ ih => rw [List.filterMap_cons, List.filterMap_cons, hshape.operation?_eq, ih]

theorem signatures_registrations_eq {as bs : List Decorator} (h : List.Forall₂ SameShape as bs)
    {l r : List (String × Variable)} (ha : registrations s kind op? as = .ok l)
    (hb : registrations s kind op? bs = .ok r) : signatures l = signatures r := by
  induction h generalizing op? l r with
  | nil =>
      obtain rfl := Except.ok.inj ha
      obtain rfl := Except.ok.inj hb
      rfl
  | cons hshape _ ih =>
      obtain ⟨first, hfirst, others, hothers, rfl⟩ := registrations_cons_eq_ok_iff.1 ha
      obtain ⟨first', hfirst', others', hothers', rfl⟩ := registrations_cons_eq_ok_iff.1 hb
      rw [← hshape.operation?_eq] at hothers'
      rw [signatures_append, signatures_append, hshape.signatures_eq hfirst hfirst',
        ih hothers hothers']

end Decorator

theorem signatures_entries_ofList_congr {l r : List (String × Variable)}
    (h : signatures l = signatures r) :
    signatures (OrderedMap.ofList l).entries = signatures (OrderedMap.ofList r).entries := by
  have hcollect (declarations : List (String × Variable)) :
      signatures (OrderedMap.ofList declarations).entries =
        (OrderedMap.ofList (signatures declarations)).entries :=
    congrArg OrderedMap.entries (OrderedMap.map_ofList Variable.type declarations)
  rw [hcollect, hcollect, h]

/-- Of the variables only their names and types count for the text. -/
theorem Document.text_congr {d e : Document} (hkind : d.kind = e.kind) (hname : d.name = e.name)
    (hselection : d.selection? = e.selection?)
    (hvariables : signatures d.declared.entries = signatures e.declared.entries) :
    d.text = e.text := by
  have hdefinitions (d : Document) : d.definitions =
      (signatures d.declared.entries).map fun e => "$" ++ e.1 ++ ": " ++ e.2 := by
    rw [signatures, List.map_map]
    rfl
  have harguments (d : Document) : d.arguments =
      (signatures d.declared.entries).map fun e => e.1 ++ ": $" ++ e.1 := by
    rw [signatures, List.map_map, arguments, OrderedMap.keys, List.map_map]
    rfl
  have hheader : d.header = e.header := by
    rw [header, header, operationName, operationName, hdefinitions, hdefinitions, hkind, hname,
      hvariables]
  have hroot : d.root = e.root := by
    rw [root, root, harguments, harguments, hname, hvariables]
  rw [text, text, lines, lines, body, body, hheader, hroot, hselection]

/-- Two documents that are built by decorators of one shape have the same text and the same name,
whatever the data. -/
theorem text_eq_of_sameShape {s : Schema} {kind : OperationKind} {config : Config}
    {as bs : List Decorator} {d e : Document} (h : List.Forall₂ Decorator.SameShape as bs)
    (hd : buildDocument s kind config as = .ok d) (he : buildDocument s kind config bs = .ok e) :
    d.text = e.text ∧ d.operationName = e.operationName := by
  obtain ⟨_, _, op, hop, l, hl, _, rfl⟩ := buildDocument_eq_ok_iff.1 hd
  obtain ⟨_, _, op', hop', r, hr, _, rfl⟩ := buildDocument_eq_ok_iff.1 he
  have hsame : some op = some op' := by
    rw [← hop, ← hop', Decorator.lastOperation?, Decorator.operations_eq_of_sameShape h]
    rfl
  obtain rfl := Option.some.inj hsame
  have hsignatures := Decorator.signatures_registrations_eq h hl hr
  exact ⟨Document.text_congr rfl rfl rfl (signatures_entries_ofList_congr hsignatures), rfl⟩

def conditionalUpdate (m : Instance) (condition : Predicate) : List Decorator :=
  [.directive .update, .model m .update, .filter condition]

theorem text_eq_of_sameShape_updates : ∃ d e,
    buildDocument .post .mutation {} (conditionalUpdate
      (.ofList [("id", .string "1"), ("title", .string "a")])
      (.compare "title" (.relation .eq (.string "b")))) = .ok d ∧
    buildDocument .post .mutation {} (conditionalUpdate (.ofList [("id", .string "2")])
      (.not (.compare "id" (.between (.int 0) (.int 9))))) = .ok e ∧
    d.text = e.text := by
  have hshape : List.Forall₂ Decorator.SameShape
      (conditionalUpdate (.ofList [("id", .string "1"), ("title", .string "a")])
        (.compare "title" (.relation .eq (.string "b"))))
      (conditionalUpdate (.ofList [("id", .string "2")])
        (.not (.compare "id" (.between (.int 0) (.int 9))))) := by
    refine .cons (.directive .update) (.cons (.model _ _ .update) (.cons ?_ .nil))
    exact .someFilter _ _ (.single "title" (.single "eq" (.string "b")))
      (.single "not" (.single "id" (.single "between" (.list [.int 0, .int 9])))) rfl rfl
  obtain ⟨d, hd⟩ : ∃ d, buildDocument .post .mutation {} (conditionalUpdate
      (.ofList [("id", .string "1"), ("title", .string "a")])
      (.compare "title" (.relation .eq (.string "b")))) = .ok d := ⟨_, rfl⟩
  obtain ⟨e, he⟩ : ∃ e, buildDocument .post .mutation {} (conditionalUpdate
      (.ofList [("id", .string "2")])
      (.not (.compare "id" (.between (.int 0) (.int 9))))) = .ok e := ⟨_, rfl⟩
  exact ⟨d, e, hd, he, (text_eq_of_sameShape hshape hd he).1⟩

end DataApi
