import DataApi.Proofs.Build.FirstFailure

/-!
# Selecting the names of types

Whether the names of types are selected is asked where the selection of a model is made, and nowhere
else. Leaving them out afterwards gives the selection that is made without them, wrapped as a page
or not, as long as no field and no associated key of the model has their name. So leaving them out
of a document commutes with every decorator (`Decorator.apply_withoutTypename`), with lists of them,
and with what is built: the one build is the other with the names of types left out.

The sets of a selection are those in which something is selected, at any depth. All of those that
are made for a model end in the name of the type and have it nowhere else; the page around them has
none.
-/

namespace DataApi

namespace Selection

def name : Selection → String
  | .field name => name
  | .object name _ => name

mutual

/-- The selection without the names of types in it; nothing is left of a selection that is one. -/
def withoutTypename? : Selection → Option Selection
  | .field name => if name = Naming.typename then none else some (.field name)
  | .object name members => some (.object name (withoutTypenames members))

def withoutTypenames : List Selection → List Selection
  | [] => []
  | member :: rest => member.withoutTypename?.toList ++ withoutTypenames rest

end

mutual

def sets : Selection → List SelectionSet
  | .field _ => []
  | .object _ members => members :: setsOfMembers members

def setsOfMembers : List Selection → List SelectionSet
  | [] => []
  | member :: rest => member.sets ++ setsOfMembers rest

end

theorem withoutTypenames_eq_filterMap (members : List Selection) :
    withoutTypenames members = members.filterMap withoutTypename? := by
  induction members with
  | nil => rfl
  | cons member rest ih =>
      rw [withoutTypenames, ih]
      cases h : member.withoutTypename? with
      | none => rw [List.filterMap_cons_none h]; rfl
      | some left => rw [List.filterMap_cons_some h]; rfl

theorem setsOfMembers_eq_flatMap (members : List Selection) :
    setsOfMembers members = members.flatMap sets := by
  induction members with
  | nil => rfl
  | cons member rest ih => rw [setsOfMembers, ih, List.flatMap_cons]

theorem setsOfMembers_append (l r : List Selection) :
    setsOfMembers (l ++ r) = setsOfMembers l ++ setsOfMembers r := by
  simp only [setsOfMembers_eq_flatMap, List.flatMap_append]

theorem withoutTypenames_append (l r : List Selection) :
    withoutTypenames (l ++ r) = withoutTypenames l ++ withoutTypenames r := by
  simp only [withoutTypenames_eq_filterMap, List.filterMap_append]

theorem withoutTypenames_fields {names : List String} (h : Naming.typename ∉ names) :
    withoutTypenames (names.map .field) = names.map .field := by
  rw [withoutTypenames_eq_filterMap, List.filterMap_map, ← List.filterMap_eq_map]
  refine List.filterMap_congr fun name hname => if_neg ?_
  rintro rfl
  exact h hname

theorem withoutTypenames_typenameSelection (wanted : Bool) :
    withoutTypenames (typenameSelection wanted) = [] := by
  cases wanted <;> decide

theorem setsOfMembers_fields (names : List String) : setsOfMembers (names.map .field) = [] := by
  simp [setsOfMembers_eq_flatMap, List.flatMap_map, sets]

theorem setsOfMembers_typenameSelection (wanted : Bool) :
    setsOfMembers (typenameSelection wanted) = [] := by
  cases wanted <;> rfl

end Selection

namespace SelectionSet

open Selection

def all (members : SelectionSet) : List SelectionSet := members :: setsOfMembers members

/-- The name of the type is the last thing that is selected, and nothing else has its name. -/
def EndsInTypename (members : SelectionSet) : Prop :=
  ∃ others : SelectionSet, members = others ++ [.field Naming.typename] ∧
    Naming.typename ∉ others.map Selection.name

def LacksTypename (members : SelectionSet) : Prop := Naming.typename ∉ members.map Selection.name

theorem withoutTypenames_paginated (members : SelectionSet) :
    withoutTypenames members.paginated = SelectionSet.paginated (withoutTypenames members) := rfl

theorem all_paginated (members : SelectionSet) :
    all (paginated members) = paginated members :: all members := by
  simp [all, paginated, setsOfMembers, sets]

theorem lacksTypename_paginated (members : SelectionSet) : (paginated members).LacksTypename := by
  have hnames : Naming.typename ∉ [Naming.items, Naming.nextToken] := by decide
  exact hnames

end SelectionSet

def Field.associatedKeys (f : Field) : List String :=
  match f.type with
  | .model (.belongsTo _ keys _) | .model (.hasOne _ keys) => keys
  | _ => []

/-- Nothing that is selected of a model has the name under which its type is selected. -/
structure Schema.AvoidsTypename (s : Schema) : Prop where
  name_ne : ∀ f ∈ s.fields, f.name ≠ Naming.typename
  not_mem_keys : ∀ f ∈ s.fields, Naming.typename ∉ f.associatedKeys

open Selection SelectionSet

theorem Field.selection?_cases (f : Field) :
    (∀ typename, f.selection? typename = some (.field f.name)) ∨
      (∀ typename, f.selection? typename =
        some (.object f.name (f.associatedKeys.map .field ++ typenameSelection typename))) ∨
      ∀ typename, f.selection? typename = none := by
  obtain ⟨name, type, required, readOnly⟩ := f
  cases type with
  | scalar type => exact .inl fun _ => rfl
  | enum type => exact .inl fun _ => rfl
  | embedded type => exact .inl fun _ => rfl
  | model association =>
      cases association with
      | belongsTo model keys targets => exact .inr (.inl fun _ => rfl)
      | hasOne model keys => exact .inr (.inl fun _ => rfl)
      | hasMany model => exact .inr (.inr fun _ => rfl)

theorem Field.withoutTypename?_selection? {f : Field} (hname : f.name ≠ Naming.typename)
    (hkeys : Naming.typename ∉ f.associatedKeys) :
    (f.selection? true).bind withoutTypename? = f.selection? false := by
  rcases f.selection?_cases with hplain | hobject | hnone
  · rw [hplain, hplain, Option.bind_some, withoutTypename?, if_neg hname]
  · rw [hobject, hobject, Option.bind_some, withoutTypename?, withoutTypenames_append,
      withoutTypenames_fields hkeys, withoutTypenames_typenameSelection]
    rfl
  · rw [hnone, hnone, Option.bind_none]

theorem Schema.AvoidsTypename.withoutTypenames_ofSchema {s : Schema} (h : s.AvoidsTypename) :
    withoutTypenames (ofSchema s true) = ofSchema s false := by
  have hfields : s.fields.filterMap (fun f => (f.selection? true).bind withoutTypename?) =
      s.fields.filterMap (Field.selection? false) :=
    List.filterMap_congr fun f hf =>
      Field.withoutTypename?_selection? (h.name_ne f hf) (h.not_mem_keys f hf)
  rw [ofSchema, ofSchema, withoutTypenames_append, withoutTypenames_typenameSelection,
    withoutTypenames_eq_filterMap, List.filterMap_filterMap, hfields]
  rfl

theorem Field.eq_of_selection?_eq_some {f : Field} {typename : Bool} {selection : Selection}
    (h : f.selection? typename = some selection) :
    selection = .field f.name ∨
      selection = .object f.name (f.associatedKeys.map .field ++ typenameSelection typename) := by
  rcases f.selection?_cases with hplain | hobject | hnone
  · exact .inl (Option.some.inj (h.symm.trans (hplain typename)))
  · exact .inr (Option.some.inj (h.symm.trans (hobject typename)))
  · nomatch h.symm.trans (hnone typename)

theorem Field.name_of_selection?_eq_some {f : Field} {typename : Bool} {selection : Selection}
    (h : f.selection? typename = some selection) : selection.name = f.name := by
  rcases eq_of_selection?_eq_some h with rfl | rfl <;> rfl

/-- The one set below a field has the keys of the other model in it. -/
theorem Field.eq_of_mem_sets {f : Field} {typename : Bool} {selection : Selection}
    {members : SelectionSet} (h : f.selection? typename = some selection)
    (hmem : members ∈ selection.sets) :
    members = f.associatedKeys.map .field ++ typenameSelection typename := by
  rcases eq_of_selection?_eq_some h with rfl | rfl
  · nomatch hmem
  · rw [Selection.sets, setsOfMembers_append, setsOfMembers_fields,
      setsOfMembers_typenameSelection] at hmem
    exact List.mem_singleton.1 hmem

/-- Every set that is made for a model consists of other selections, followed by the name of the
type where it is wanted. -/
theorem Schema.AvoidsTypename.of_mem_all {s : Schema} (h : s.AvoidsTypename) {typename : Bool}
    {members : SelectionSet} (hmem : members ∈ all (ofSchema s typename)) :
    ∃ others : SelectionSet, members = others ++ typenameSelection typename ∧
      Naming.typename ∉ others.map Selection.name := by
  rcases List.mem_cons.1 hmem with rfl | hmem
  · refine ⟨_, rfl, ?_⟩
    simp only [List.mem_map, List.mem_filterMap, not_exists, not_and]
    rintro selection ⟨f, hf, hselection⟩ hname
    exact h.name_ne f hf ((Field.name_of_selection?_eq_some hselection).symm.trans hname)
  · rw [ofSchema, setsOfMembers_append, setsOfMembers_typenameSelection, List.append_nil,
      setsOfMembers_eq_flatMap] at hmem
    obtain ⟨selection, hselection, hmem⟩ := List.mem_flatMap.1 hmem
    obtain ⟨f, hf, hselection⟩ := List.mem_filterMap.1 hselection
    refine ⟨_, Field.eq_of_mem_sets hselection hmem, ?_⟩
    simpa [Selection.name] using h.not_mem_keys f hf

theorem Schema.AvoidsTypename.endsInTypename {s : Schema} (h : s.AvoidsTypename)
    {members : SelectionSet} (hmem : members ∈ all (ofSchema s true)) : members.EndsInTypename :=
  h.of_mem_all hmem

theorem Schema.AvoidsTypename.lacksTypename {s : Schema} (h : s.AvoidsTypename)
    {members : SelectionSet} (hmem : members ∈ all (ofSchema s false)) : members.LacksTypename := by
  obtain ⟨others, rfl, hothers⟩ := h.of_mem_all hmem
  rwa [typenameSelection, if_neg Bool.false_ne_true, List.append_nil]

def Document.withoutTypename (d : Document) : Document :=
  { d with selection? := d.selection?.map withoutTypenames }

theorem Document.register_withoutTypename (d : Document) (policy : CollisionPolicy)
    (declarations : List (String × Variable)) :
    d.withoutTypename.register policy declarations =
      (d.register policy declarations).map withoutTypename := by
  rw [register, register]
  cases Variables.ofDeclarations policy declarations with
  | error c => rfl
  | ok incoming =>
      rw [ok_bind, ok_bind]
      change ((Variables.absorb policy d.declared incoming.entries).result >>= _) = _
      cases (Variables.absorb policy d.declared incoming.entries).result <;> rfl

namespace Decorator

variable {s : Schema} {policy : CollisionPolicy}

theorem withoutTypenames_selection (h : s.AvoidsTypename) (op : Operation) :
    withoutTypenames (selection s { collisions := policy, typename := true } op) =
      selection s { collisions := policy, typename := false } op := by
  have hmembers := h.withoutTypenames_ofSchema
  cases op with
  | list => exact (withoutTypenames_paginated _).trans (congrArg SelectionSet.paginated hmembers)
  | _ => exact hmembers

theorem apply_withoutTypename (h : s.AvoidsTypename) (d : Document) (decorator : Decorator) :
    decorator.apply s { collisions := policy, typename := false } d.withoutTypename =
      (decorator.apply s { collisions := policy, typename := true } d).map
        Document.withoutTypename := by
  cases hop : decorator.operation? with
  | some op =>
      obtain rfl := eq_directive_of_operation? hop
      have hkind : d.withoutTypename.kind = d.kind := rfl
      rw [apply, apply, direct, direct, hkind]
      by_cases hmatch : op.kind = d.kind
      · rw [if_pos hmatch, if_pos hmatch, ← withoutTypenames_selection h]
        rfl
      · rw [if_neg hmatch, if_neg hmatch]
        rfl
  | none =>
      have hdeclarations : decorator.declarations s d.withoutTypename = decorator.declarations s d :=
        declarations_congr rfl rfl decorator
      rw [apply_of_operation?_eq_none _ hop, apply_of_operation?_eq_none _ hop, hdeclarations]
      cases decorator.declarations s d with
      | error e => rfl
      | ok declared =>
          rw [ok_bind, ok_bind, Document.register_withoutTypename]
          cases d.register policy declared <;> rfl

theorem applyAll_withoutTypename (h : s.AvoidsTypename) (policy : CollisionPolicy) (d : Document)
    (decorators : List Decorator) :
    applyAll s { collisions := policy, typename := false } d.withoutTypename decorators =
      (applyAll s { collisions := policy, typename := true } d decorators).map
        Document.withoutTypename :=
  foldlM_map_of_step (fun d decorator => apply_withoutTypename h d decorator) decorators d

end Decorator

/-- What is built without the names of types is what is built with them, without them. -/
theorem buildDocument_withoutTypename {s : Schema} (h : s.AvoidsTypename) (kind : OperationKind)
    (policy : CollisionPolicy) (decorators : List Decorator) :
    buildDocument s kind { collisions := policy, typename := false } decorators =
      (buildDocument s kind { collisions := policy, typename := true } decorators).map
        Document.withoutTypename := by
  cases hvalidate : s.validate with
  | error e =>
      rw [buildDocument_of_invalid hvalidate, buildDocument_of_invalid hvalidate]
      rfl
  | ok u =>
      have hvalid : s.Valid := Schema.validate_eq_ok_iff.1 hvalidate
      have hempty : Document.withoutTypename { kind } = { kind } := rfl
      have hrun := Decorator.applyAll_withoutTypename h policy { kind } decorators
      rw [hempty] at hrun
      rw [buildDocument_of_valid hvalid, buildDocument_of_valid hvalid, hrun]
      cases Decorator.applyAll s { collisions := policy, typename := true } { kind } decorators with
      | error e => rfl
      | ok d =>
          have hnone : d.withoutTypename.selection?.isNone = d.selection?.isNone := Option.isNone_map
          simp only [Except.map, ok_bind, hnone]
          cases d.selection?.isNone <;> rfl

/-- Two documents agree in all but the names of types. They end every set that is selected in the
first one, save for the page around a list of instances, and are selected nowhere in the second. -/
structure Document.WithAndWithoutTypename (d e : Document) : Prop where
  kind : e.kind = d.kind
  name : e.name = d.name
  directive? : e.directive? = d.directive?
  declared : e.declared = d.declared
  selection? : e.selection? = d.selection?.map withoutTypenames
  endsInTypename : ∃ members : SelectionSet,
    d.selection? = some (if d.directive? = some .list then members.paginated else members) ∧
      ∀ set ∈ members.all, set.EndsInTypename
  lacksTypename : ∃ members : SelectionSet, e.selection? = some members ∧
    ∀ set ∈ members.all, set.LacksTypename

theorem Decorator.lacksTypename_of_mem_all {s : Schema} {policy : CollisionPolicy}
    (h : s.AvoidsTypename) (op : Operation) {members : SelectionSet}
    (hmem : members ∈ all (selection s { collisions := policy, typename := false } op)) :
    members.LacksTypename := by
  cases op with
  | list =>
      have hsets : all (selection s { collisions := policy, typename := false } .list) =
          SelectionSet.paginated (ofSchema s false) :: all (ofSchema s false) := all_paginated _
      rw [hsets] at hmem
      rcases List.mem_cons.1 hmem with rfl | hmem
      · exact lacksTypename_paginated _
      · exact h.lacksTypename hmem
  | _ => exact h.lacksTypename hmem

theorem Decorator.withAndWithoutTypename_outline {s : Schema} {policy : CollisionPolicy}
    (h : s.AvoidsTypename) (kind : OperationKind) (op : Operation)
    (declared : List (String × Variable)) :
    let d : Document := .outline s kind { collisions := policy, typename := true } (some op) declared
    d.WithAndWithoutTypename d.withoutTypename where
  kind := rfl
  name := rfl
  directive? := rfl
  declared := rfl
  selection? := rfl
  endsInTypename := by
    refine ⟨ofSchema s true, ?_, fun set hset => h.endsInTypename hset⟩
    cases op <;> rfl
  lacksTypename := by
    refine ⟨_, congrArg some (withoutTypenames_selection h op), fun set hset => ?_⟩
    exact lacksTypename_of_mem_all h op hset

/-- Whether the names of types are selected changes nothing but that: the same error is reported, or
two documents are built that agree in all else, the variables and their order included. -/
theorem buildDocument_with_and_without_typename {s : Schema} (h : s.AvoidsTypename)
    (kind : OperationKind) (policy : CollisionPolicy) (decorators : List Decorator) :
    (∃ e, buildDocument s kind { collisions := policy, typename := true } decorators = .error e ∧
      buildDocument s kind { collisions := policy, typename := false } decorators = .error e) ∨
    ∃ d e, buildDocument s kind { collisions := policy, typename := true } decorators = .ok d ∧
      buildDocument s kind { collisions := policy, typename := false } decorators = .ok e ∧
      d.WithAndWithoutTypename e := by
  have hwithout := buildDocument_withoutTypename h kind policy decorators
  cases hwith : buildDocument s kind { collisions := policy, typename := true } decorators with
  | error e =>
      rw [hwith] at hwithout
      exact .inl ⟨e, rfl, hwithout⟩
  | ok d =>
      rw [hwith] at hwithout
      obtain ⟨_, _, op, _, declared, _, _, rfl⟩ := buildDocument_eq_ok_iff.1 hwith
      exact .inr ⟨_, _, rfl, hwithout, Decorator.withAndWithoutTypename_outline h kind op declared⟩

def Schema.review : Schema where
  name := "Review"
  primaryKey := .custom ["book", "number"]
  fields := [
    { name := "book", type := .scalar .id },
    { name := "number", type := .scalar .int },
    { name := "bookItem", type := .model (.belongsTo "Book" ["isbn"] ["book"]) },
    { name := "votes", type := .model (.hasMany "Vote") },
    { name := "summary", type := .model (.hasOne "Summary" ["book", "number"]) }]

theorem buildDocument_with_and_without_typename_review :
    let decorators : List Decorator := [.directive .get, .pagination { limit := some 5 },
      .directive .list, .filter (.compare "number" (.relation .gt (.int 3)))]
    Schema.review.AvoidsTypename ∧ ∃ d e,
      buildDocument .review .query { collisions := .reject, typename := true } decorators = .ok d ∧
        buildDocument .review .query { collisions := .reject, typename := false } decorators = .ok e ∧
        d.selection? = some (SelectionSet.paginated [.field "book", .field "number",
          .object "bookItem" [.field "isbn", .field "__typename"],
          .object "summary" [.field "book", .field "number", .field "__typename"],
          .field "__typename"]) ∧
        e.declared.keys = ["limit", "filter"] ∧ d.WithAndWithoutTypename e := by
  intro decorators
  have havoids : Schema.review.AvoidsTypename := ⟨by decide, by decide⟩
  have hbuild : ∃ d, buildDocument .review .query { collisions := .reject, typename := true }
      decorators = .ok d := ⟨_, rfl⟩
  obtain ⟨d, hd⟩ := hbuild
  rcases buildDocument_with_and_without_typename havoids .query .reject decorators with
    ⟨_, herror, _⟩ | ⟨d', e, hd', he, hboth⟩
  · rw [hd] at herror
    nomatch herror
  · refine ⟨havoids, d', e, hd', he, ?_, ?_, hboth⟩
    · rw [← Except.ok.inj hd']
      rfl
    · rw [← Except.ok.inj he]
      rfl

end DataApi
