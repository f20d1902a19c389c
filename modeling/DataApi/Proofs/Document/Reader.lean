import DataApi.Proofs.Document.Token
import DataApi.Request

/-!
# Reading a document back

A reader of the grammar in which documents are written: a kind and the name of the operation, the
variables with their types between parentheses, and in braces the root field with its arguments and
what is selected in it. The parentheses may be missing but not empty, and so may the braces below
the root field. Selection sets are read with a stack of the objects that are open: a name is a
field, an opening brace makes an object of the field before it, and a closing brace ends the object
that was opened last, which must have a member by then.

The tokens of a document are read whole (`ofTokens?_tokens`): what is found in them is what the
document holds, with every empty selection set replaced by the name of the type.
-/

namespace DataApi

structure Reading where
  kind : OperationKind
  operationName : String
  definitions : List (String × String)
  root : String
  arguments : List (String × String)
  selection? : Option SelectionSet
  deriving DecidableEq

namespace Reading

def definition? : List Token → Option (String × String)
  | [.dollar, .name variableName, .colon, .name type] => some (variableName, type)
  | [.dollar, .name variableName, .colon, .name type, .bang] => some (variableName, type ++ "!")
  | _ => none

def argument? : List Token → Option (String × String)
  | [.name argument, .colon, .dollar, .name variableName] => some (argument, variableName)
  | _ => none

/-- Reads items between parentheses with commas between them, if a parenthesis opens, and returns
what follows. -/
def group? {α : Type} (item? : List Token → Option α) :
    List Token → Option (List α × List Token)
  | .openParen :: rest =>
      match rest.dropWhile (· != .closeParen) with
      | .closeParen :: after =>
          (((rest.takeWhile (· != .closeParen)).splitOn .comma).mapM item?).map (·, after)
      | _ => none
  | rest => some ([], rest)

/-- Reads the members of a selection set up to its closing brace and returns what follows. The
objects that are open stand in `outer`, each with its name and the members before it; all members
are collected from the last to the first. -/
def members? : List (String × List Selection) → List Selection → List Token →
    Option (SelectionSet × List Token)
  | outer, done, .name name :: rest => members? outer (.field name :: done) rest
  | outer, .field name :: done, .openBrace :: rest => members? ((name, done) :: outer) [] rest
  | [], member :: done, .closeBrace :: rest => some ((member :: done).reverse, rest)
  | (name, before) :: outer, member :: done, .closeBrace :: rest =>
      members? outer (.object name (member :: done).reverse :: before) rest
  | _, _, _ => none

def selected? : List Token → Option (Option SelectionSet)
  | [.closeBrace] => some none
  | .openBrace :: rest =>
      match members? [] [] rest with
      | some (members, [.closeBrace]) => some (some members)
      | _ => none
  | _ => none

def kind? : String → Option OperationKind
  | "query" => some .query
  | "mutation" => some .mutation
  | "subscription" => some .subscription
  | _ => none

def ofTokens? : List Token → Option Reading
  | .name keyword :: .name operationName :: rest => do
      let kind ← kind? keyword
      let (definitions, body) ← group? definition? rest
      match body with
      | .openBrace :: .name root :: rest => do
          let (arguments, rest) ← group? argument? rest
          let selection? ← selected? rest
          return { kind, operationName, definitions, root, arguments, selection? }
      | _ => none
  | _ => none

def read? (text : String) : Option Reading := (Token.tokens text.toList).bind ofTokens?

end Reading

namespace Selection

mutual

def names : Selection → List String
  | .field name => [name]
  | .object name members => name :: namesOfMembers members

def namesOfMembers : List Selection → List String
  | [] => []
  | member :: rest => member.names ++ namesOfMembers rest

end

mutual

/-- The selection with `__typename` in every set that is empty. -/
def completed : Selection → Selection
  | .field name => .field name
  | .object name [] => .object name [.field "__typename"]
  | .object name (member :: rest) => .object name (member.completed :: completedMembers rest)

def completedMembers : List Selection → List Selection
  | [] => []
  | member :: rest => member.completed :: completedMembers rest

end

mutual

def tokens : Selection → List Token
  | .field name => [.name name]
  | .object name members => .name name :: .openBrace :: (tokensOfMembers members ++ [.closeBrace])

def tokensOfMembers : List Selection → List Token
  | [] => []
  | member :: rest => member.tokens ++ tokensOfMembers rest

end

end Selection

def SelectionSet.completed : SelectionSet → SelectionSet
  | [] => [.field "__typename"]
  | member :: rest => Selection.completedMembers (member :: rest)

def groupTokens (items : List (List Token)) : List Token :=
  if items.isEmpty then [] else .openParen :: ([Token.comma].intercalate items ++ [.closeParen])

def typeTokens (type : String) : List Token :=
  if Token.isName type.toList then [.name type]
  else [.name (String.ofList type.toList.dropLast), .bang]

def definitionTokens (e : String × Variable) : List Token :=
  .dollar :: .name e.1 :: .colon :: typeTokens e.2.type

def argumentTokens (name : String) : List Token := [.name name, .colon, .dollar, .name name]

def selectionTokens : Option SelectionSet → List Token
  | none => [.closeBrace]
  | some members => .openBrace ::
      (Selection.tokensOfMembers (SelectionSet.filled members) ++ [.closeBrace, .closeBrace])

def Document.tokens (d : Document) : List Token :=
  .name (Keyword.keyword d.kind) :: .name d.operationName ::
    (groupTokens (d.declared.entries.map definitionTokens) ++ .openBrace :: .name d.name ::
      (groupTokens (d.declared.keys.map argumentTokens) ++ selectionTokens d.selection?))

def IsName (name : String) : Prop := Token.isName name.toList = true

instance : DecidablePred IsName := fun _ => inferInstanceAs (Decidable (_ = true))

/-- A type of the grammar: a name, with or without a bang. -/
def IsType (type : String) : Prop := ∃ name, IsName name ∧ (type = name ∨ type = name ++ "!")

theorem groupTokens_cons (item : List Token) (items : List (List Token)) :
    groupTokens (item :: items) =
      .openParen :: ([Token.comma].intercalate (item :: items) ++ [.closeParen]) := rfl

structure Document.Named (d : Document) : Prop where
  root : IsName d.name
  variableName : ∀ e ∈ d.declared.entries, IsName e.1
  type : ∀ e ∈ d.declared.entries, IsType e.2.type
  selection : ∀ members, d.selection? = some members →
    ∀ name ∈ Selection.namesOfMembers members, IsName name

namespace Selection

mutual

theorem filled_eq_completed : (selection : Selection) → selection.filled = selection.completed
  | .field _ => rfl
  | .object _ [] => rfl
  | .object name (member :: rest) => by
      have ih := filled_eq_completed member
      have ih' := filledMembers_eq_completedMembers rest
      change object name (member.filled :: filledMembers rest) = _
      rw [ih, ih', completed]

theorem filledMembers_eq_completedMembers :
    (members : List Selection) → filledMembers members = completedMembers members
  | [] => rfl
  | member :: rest => by
      have ih := filled_eq_completed member
      have ih' := filledMembers_eq_completedMembers rest
      rw [filledMembers, ih, ih', completedMembers]

end

theorem filled_eq_filledMembers {members : SelectionSet} (h : members ≠ []) :
    SelectionSet.filled members = filledMembers members :=
  if_neg (by simpa using h)

theorem filled_ne_nil (members : SelectionSet) : SelectionSet.filled members ≠ [] := by
  cases members with
  | nil => nofun
  | cons member rest => exact List.cons_ne_nil _ _

theorem filledSet_eq_completed (members : SelectionSet) :
    SelectionSet.filled members = SelectionSet.completed members := by
  cases members with
  | nil => rfl
  | cons member rest => exact filledMembers_eq_completedMembers (member :: rest)

mutual

/-- Filling empty sets brings in no other name than that of the type. -/
theorem names_filled_subset :
    (selection : Selection) → selection.filled.names ⊆ Naming.typename :: selection.names
  | .field _ => List.subset_cons_self _ _
  | .object name [] => by
      intro other h
      rcases List.mem_cons.1 h with rfl | h
      · exact List.mem_cons_of_mem _ List.mem_cons_self
      · exact List.mem_cons.2 (.inl (List.mem_singleton.1 h))
  | .object name (member :: rest) => by
      have ih := namesOfMembers_filled_subset (member :: rest)
      intro other h
      rcases List.mem_cons.1 h with rfl | h
      · exact List.mem_cons_of_mem _ List.mem_cons_self
      · rcases List.mem_cons.1 (ih h) with rfl | h
        · exact List.mem_cons_self
        · exact List.mem_cons_of_mem _ (List.mem_cons_of_mem _ h)

theorem namesOfMembers_filled_subset :
    (members : List Selection) →
      namesOfMembers (filledMembers members) ⊆ Naming.typename :: namesOfMembers members
  | [] => List.nil_subset _
  | member :: rest => by
      have ih := names_filled_subset member
      have ih' := namesOfMembers_filled_subset rest
      intro name h
      rcases List.mem_append.1 h with h | h
      · rcases List.mem_cons.1 (ih h) with rfl | h
        · exact List.mem_cons_self
        · exact List.mem_cons_of_mem _ (List.mem_append_left _ h)
      · rcases List.mem_cons.1 (ih' h) with rfl | h
        · exact List.mem_cons_self
        · exact List.mem_cons_of_mem _ (List.mem_append_right _ h)

end

theorem forall_names_filled {P : String → Prop} (htypename : P Naming.typename)
    {members : SelectionSet} (h : ∀ name ∈ namesOfMembers members, P name) :
    ∀ name ∈ namesOfMembers (SelectionSet.filled members), P name := by
  intro name hname
  by_cases hempty : members = []
  · rw [hempty] at hname
    obtain rfl : name = Naming.typename := List.mem_singleton.1 hname
    exact htypename
  · rw [filled_eq_filledMembers hempty] at hname
    rcases List.mem_cons.1 (namesOfMembers_filled_subset members hname) with rfl | hname
    · exact htypename
    · exact h name hname

end Selection

namespace Reading

theorem members?_closeBrace (name : String) (before : List Selection)
    (outer : List (String × List Selection)) {members : List Selection} (h : members ≠ [])
    (rest : List Token) :
    members? ((name, before) :: outer) members.reverse (.closeBrace :: rest) =
      members? outer (.object name members :: before) rest := by
  obtain ⟨last, others, hlast⟩ := List.exists_cons_of_ne_nil (List.reverse_ne_nil_iff.2 h)
  rw [hlast, members?, ← hlast, List.reverse_reverse]

theorem members?_end {members : List Selection} (h : members ≠ []) (rest : List Token) :
    members? [] members.reverse (.closeBrace :: rest) = some (members, rest) := by
  obtain ⟨last, others, hlast⟩ := List.exists_cons_of_ne_nil (List.reverse_ne_nil_iff.2 h)
  rw [hlast, members?, ← hlast, List.reverse_reverse]

mutual

/-- The tokens of a selection are read as one more member. -/
theorem members?_tokens (outer : List (String × List Selection)) (done : List Selection)
    (rest : List Token) : (selection : Selection) →
      members? outer done (selection.filled.tokens ++ rest) =
        members? outer (selection.filled :: done) rest
  | .field name => by rw [Selection.filled, Selection.tokens, List.singleton_append, members?]
  | .object name [] => by
      change members? outer done
        (.name name :: .openBrace :: .name Naming.typename :: .closeBrace :: rest) = _
      rw [members?, members?, members?]
      exact members?_closeBrace name done outer (List.cons_ne_nil _ []) rest
  | .object name (member :: others) => by
      have ih := members?_tokensOfMembers ((name, done) :: outer) [] (.closeBrace :: rest)
        (member :: others)
      have hfilled : (Selection.object name (member :: others)).filled =
          .object name (Selection.filledMembers (member :: others)) := rfl
      have hne : Selection.filledMembers (member :: others) ≠ [] := List.cons_ne_nil _ _
      rw [hfilled, Selection.tokens, List.cons_append, List.cons_append, List.append_assoc,
        List.singleton_append, members?, members?, ih, List.append_nil,
        members?_closeBrace name done outer hne]

theorem members?_tokensOfMembers (outer : List (String × List Selection))
    (done : List Selection) (rest : List Token) : (members : List Selection) →
      members? outer done (Selection.tokensOfMembers (Selection.filledMembers members) ++ rest) =
        members? outer ((Selection.filledMembers members).reverse ++ done) rest
  | [] => rfl
  | member :: others => by
      have ih := members?_tokens outer done
        (Selection.tokensOfMembers (Selection.filledMembers others) ++ rest) member
      have ih' := members?_tokensOfMembers outer (member.filled :: done) rest others
      rw [Selection.filledMembers, Selection.tokensOfMembers, List.append_assoc, ih, ih',
        List.reverse_cons, List.append_assoc]
      rfl

end

theorem members?_tokensOfMembers_filled (outer : List (String × List Selection))
    (members : SelectionSet) (rest : List Token) :
    members? outer [] (Selection.tokensOfMembers (SelectionSet.filled members) ++ rest) =
      members? outer (SelectionSet.filled members).reverse rest := by
  cases members with
  | nil => exact members?_tokensOfMembers outer [] rest [.field Naming.typename]
  | cons member others =>
      rw [Selection.filled_eq_filledMembers (List.cons_ne_nil _ _), members?_tokensOfMembers,
        List.append_nil]

theorem mem_intercalate_singleton {α : Type} {x a : α} :
    ∀ {lists : List (List α)}, a ∈ [x].intercalate lists → a = x ∨ ∃ l ∈ lists, a ∈ l
  | [], h => by simp at h
  | [l], h => by
      rw [List.intercalate_singleton] at h
      exact .inr ⟨l, List.mem_singleton_self l, h⟩
  | l :: l' :: lists, h => by
      rw [List.intercalate_cons_cons, List.append_assoc, List.mem_append, List.mem_append] at h
      rcases h with h | h | h
      · exact .inr ⟨l, List.mem_cons_self, h⟩
      · exact .inl (List.mem_singleton.1 h)
      · rcases mem_intercalate_singleton h with h | ⟨m, hm, h⟩
        · exact .inl h
        · exact .inr ⟨m, List.mem_cons_of_mem _ hm, h⟩

theorem mapM_map_eq_some {α β γ : Type} {f : β → Option γ} {g : α → β} {h : α → γ}
    {es : List α} (hf : ∀ e ∈ es, f (g e) = some (h e)) :
    (es.map g).mapM f = some (es.map h) := by
  induction es with
  | nil => rfl
  | cons e es ih =>
      have htail := ih fun e he => hf e (List.mem_cons_of_mem _ he)
      rw [List.map_cons, List.mapM_cons, hf e List.mem_cons_self, htail]
      rfl

/-- A group of items is read item by item, provided that no item holds a mark of the group. -/
theorem group?_groupTokens {α β : Type} {item? : List Token → Option β} {g : α → List Token}
    {h : α → β} {es : List α} (hitem : ∀ e ∈ es, item? (g e) = some (h e))
    (hcomma : ∀ e ∈ es, .comma ∉ g e) (hclose : ∀ e ∈ es, .closeParen ∉ g e)
    {rest : List Token} (hrest : rest.head? ≠ some .openParen) :
    group? item? (groupTokens (es.map g) ++ rest) = some (es.map h, rest) := by
  cases es with
  | nil =>
      change group? item? rest = some ([], rest)
      unfold group?
      split
      · exact absurd rfl hrest
      · rfl
  | cons e es =>
      have hinside : ∀ t ∈ [Token.comma].intercalate ((e :: es).map g),
          (t != .closeParen) = true := by
        intro t ht
        rw [bne_iff_ne]
        rintro rfl
        rcases mem_intercalate_singleton ht with ht | ⟨l, hl, ht⟩
        · nomatch ht
        · obtain ⟨e', he', rfl⟩ := List.mem_map.1 hl
          exact hclose e' he' ht
      have hsplit : ([Token.comma].intercalate ((e :: es).map g)).splitOn .comma =
          (e :: es).map g := by
        refine List.splitOn_intercalate Token.comma ?_ (List.cons_ne_nil _ _)
        intro l hl
        obtain ⟨e', he', rfl⟩ := List.mem_map.1 hl
        exact hcomma e' he'
      have hgroup : groupTokens ((e :: es).map g) ++ rest =
          .openParen :: ([Token.comma].intercalate ((e :: es).map g) ++ .closeParen :: rest) := by
        rw [List.map_cons, groupTokens_cons, List.cons_append, List.append_assoc]
        rfl
      have hdrop : List.dropWhile (· != .closeParen) (.closeParen :: rest) =
          .closeParen :: rest := rfl
      have htake : List.takeWhile (· != .closeParen) (.closeParen :: rest) = [] := rfl
      rw [hgroup, group?, List.dropWhile_append_of_pos hinside,
        List.takeWhile_append_of_pos hinside, hdrop, htake, List.append_nil, hsplit,
        mapM_map_eq_some hitem]
      rfl

theorem toList_of_eq_append_bang {name type : String} (h : type = name ++ "!") :
    type.toList = name.toList ++ ['!'] ∧ ¬Token.isName type.toList = true := by
  have htype : type.toList = name.toList ++ ['!'] := by
    rw [h, String.toList_append]
    rfl
  refine ⟨htype, fun hname => ?_⟩
  have hall := Token.continuesName_of_isName hname
  rw [htype, List.all_append, Bool.and_eq_true] at hall
  exact absurd hall.2 (by decide)

theorem definition?_tokens {e : String × Variable} (h : IsType e.2.type) :
    definition? (definitionTokens e) = some (e.1, e.2.type) := by
  obtain ⟨name, hname, ht | ht⟩ := h
  · have hword : Token.isName e.2.type.toList = true := ht ▸ hname
    rw [definitionTokens, typeTokens, if_pos hword]
    rfl
  · obtain ⟨htype, hbang⟩ := toList_of_eq_append_bang ht
    rw [definitionTokens, typeTokens, if_neg hbang, htype, List.dropLast_concat,
      String.ofList_toList, ht]
    rfl

theorem not_mem_definitionTokens {t : Token} {e : String × Variable} (hname : ∀ s, t ≠ .name s)
    (hdollar : t ≠ .dollar) (hcolon : t ≠ .colon) (hbang : t ≠ .bang) :
    t ∉ definitionTokens e := by
  have htype : t ∉ typeTokens e.2.type := by
    unfold typeTokens
    split
    · simp [hname]
    · simp [hname, hbang]
  simp [definitionTokens, hname, hdollar, hcolon, htype]

theorem argument?_tokens (name : String) : argument? (argumentTokens name) = some (name, name) :=
  rfl

theorem selected?_tokens (selection? : Option SelectionSet) :
    selected? (selectionTokens selection?) = some (selection?.map SelectionSet.filled) := by
  cases selection? with
  | none => rfl
  | some members =>
      have hread : members? [] [] (Selection.tokensOfMembers (SelectionSet.filled members) ++
          [.closeBrace, .closeBrace]) = some (SelectionSet.filled members, [.closeBrace]) := by
        rw [members?_tokensOfMembers_filled, members?_end (Selection.filled_ne_nil members)]
      rw [selectionTokens, selected?, hread]
      rfl

theorem kind?_keyword (kind : OperationKind) : kind? (Keyword.keyword kind) = some kind := by
  cases kind <;> rfl

theorem ofTokens?_tokens {d : Document} (h : ∀ e ∈ d.declared.entries, IsType e.2.type) :
    ofTokens? d.tokens = some {
      kind := d.kind
      operationName := d.operationName
      definitions := d.declared.entries.map fun e => (e.1, e.2.type)
      root := d.name
      arguments := d.declared.keys.map fun name => (name, name)
      selection? := d.selection?.map SelectionSet.filled } := by
  have hdefinitions (rest : List Token) :
      group? definition? (groupTokens (d.declared.entries.map definitionTokens) ++
        .openBrace :: rest) =
        some (d.declared.entries.map fun e => (e.1, e.2.type), .openBrace :: rest) := by
    refine group?_groupTokens (fun e he => definition?_tokens (h e he)) ?_ ?_ nofun
    · exact fun e _ => not_mem_definitionTokens nofun nofun nofun nofun
    · exact fun e _ => not_mem_definitionTokens nofun nofun nofun nofun
  have harguments : group? argument? (groupTokens (d.declared.keys.map argumentTokens) ++
      selectionTokens d.selection?) =
        some (d.declared.keys.map fun name => (name, name), selectionTokens d.selection?) := by
    refine group?_groupTokens (fun name _ => argument?_tokens name) ?_ ?_ ?_
    · intro name _
      simp [argumentTokens]
    · intro name _
      simp [argumentTokens]
    · cases d.selection? <;> nofun
  rw [Document.tokens, ofTokens?, kind?_keyword]
  simp only [Option.bind_eq_bind, Option.bind_some, hdefinitions, harguments, selected?_tokens]
  rfl

end Reading

end DataApi
