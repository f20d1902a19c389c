import DataApi.Proofs.Document.Reader

/-!
# The text of a document reads back

The text of a document is put together from pieces that stand for tokens: a name, a type, a group
between parentheses, a line. An indented line on its own stands for the tokens of its content, and
lines one below the other for the tokens of all of them, since a line break ends every name. So the
text stands for the tokens of the document, from which the document is read.
-/

namespace DataApi

open Token hiding name

theorem scans_isName {name : String} (h : IsName name) : Scans name.toList [.name name] := by
  have hscan := scans_name h
  rwa [String.ofList_toList] at hscan

theorem scans_isType {type : String} (h : IsType type) :
    Scans type.toList (typeTokens type) := by
  obtain ⟨name, hname, ht | ht⟩ := h
  · have hword : isName type.toList = true := ht ▸ hname
    rw [typeTokens, if_pos hword, ht]
    exact scans_isName hname
  · obtain ⟨htype, hbang⟩ := Reading.toList_of_eq_append_bang ht
    rw [typeTokens, if_neg hbang, htype, List.dropLast_concat, String.ofList_toList]
    have hmark : Scans ['!'] [.bang] := scans_nil.mark rfl
    exact (scans_isName hname).append hmark fun rest _ => delimited_cons (by decide) rest

theorem scans_definition {e : String × Variable} (hname : IsName e.1) (htype : IsType e.2.type) :
    Scans ("$" ++ e.1 ++ ": " ++ e.2.type).toList (definitionTokens e) := by
  have hblank : Scans (' ' :: e.2.type.toList) (typeTokens e.2.type) :=
    (scans_isType htype).blank (by decide)
  have hcolon : Scans (':' :: ' ' :: e.2.type.toList) (.colon :: typeTokens e.2.type) :=
    hblank.mark rfl
  have hboth := (scans_isName hname).append hcolon fun rest _ => delimited_cons (by decide) _
  have hall : Scans ('$' :: (e.1.toList ++ ':' :: ' ' :: e.2.type.toList))
      (definitionTokens e) := hboth.mark rfl
  simpa using hall

theorem scans_argument {name : String} (h : IsName name) :
    Scans (name ++ ": $" ++ name).toList (argumentTokens name) := by
  have hdollar : Scans ('$' :: name.toList) [.dollar, .name name] := (scans_isName h).mark rfl
  have hblank : Scans (' ' :: '$' :: name.toList) [.dollar, .name name] :=
    hdollar.blank (by decide)
  have hcolon : Scans (':' :: ' ' :: '$' :: name.toList) [.colon, .dollar, .name name] :=
    hblank.mark rfl
  have hall := (scans_isName h).append hcolon fun rest _ => delimited_cons (by decide) _
  simpa [argumentTokens] using hall

theorem scans_intercalate {α : Type} {text : α → String} {ts : α → List Token} :
    ∀ {es : List α}, (∀ e ∈ es, Scans (text e).toList (ts e)) →
      Scans (", ".intercalate (es.map text)).toList ([Token.comma].intercalate (es.map ts))
  | [], _ => scans_nil
  | [e], h => by
      simpa using h e (List.mem_singleton_self e)
  | e :: e' :: es, h => by
      have ih := scans_intercalate fun x hx => h x (List.mem_cons_of_mem e hx)
      have hblank : Scans (' ' :: (", ".intercalate ((e' :: es).map text)).toList)
          ([Token.comma].intercalate ((e' :: es).map ts)) := ih.blank (by decide)
      have hcomma : Scans (',' :: ' ' :: (", ".intercalate ((e' :: es).map text)).toList)
          (.comma :: [Token.comma].intercalate ((e' :: es).map ts)) := hblank.mark rfl
      have hall := (h e List.mem_cons_self).append hcomma fun rest _ =>
        delimited_cons (by decide) _
      have htext : (", ".intercalate ((e :: e' :: es).map text)).toList =
          (text e).toList ++ ',' :: ' ' :: (", ".intercalate ((e' :: es).map text)).toList := by
        rw [List.map_cons, List.map_cons, String.intercalate_cons_cons, String.toList_append,
          String.toList_append, List.append_assoc]
        rfl
      have htokens : [Token.comma].intercalate ((e :: e' :: es).map ts) =
          ts e ++ .comma :: [Token.comma].intercalate ((e' :: es).map ts) := by
        rw [List.map_cons, List.map_cons, List.intercalate_cons_cons, List.append_assoc]
        rfl
      rwa [htext, htokens]

theorem scans_parenthesized {α : Type} {text : α → String} {ts : α → List Token} {es : List α}
    (h : ∀ e ∈ es, Scans (text e).toList (ts e)) :
    Scans (parenthesized (es.map text)).toList (groupTokens (es.map ts)) := by
  cases es with
  | nil => exact scans_nil
  | cons e es =>
      have hclose : Scans [')'] [.closeParen] := scans_nil.mark rfl
      have hinside := (scans_intercalate h).append hclose fun rest _ =>
        delimited_cons (by decide) _
      have hall : Scans ('(' :: ((", ".intercalate ((e :: es).map text)).toList ++ [')']))
          (.openParen :: ([Token.comma].intercalate ((e :: es).map ts) ++ [.closeParen])) :=
        hinside.mark rfl
      have htext : (parenthesized ((e :: es).map text)).toList =
          '(' :: ((", ".intercalate ((e :: es).map text)).toList ++ [')']) := by
        rw [List.map_cons, parenthesized_cons, String.toList_append, String.toList_append]
        rfl
      have htokens : groupTokens ((e :: es).map ts) =
          .openParen :: ([Token.comma].intercalate ((e :: es).map ts) ++ [.closeParen]) :=
        groupTokens_cons (ts e) (es.map ts)
      rwa [htext, htokens]

theorem delimited_parenthesized (items : List String) {rest : List Char} (h : Delimited rest) :
    Delimited ((parenthesized items).toList ++ rest) := by
  cases items with
  | nil => exact h
  | cons item items =>
      rw [parenthesized_cons, String.toList_append, String.toList_append]
      exact delimited_cons (by decide) _

theorem scans_opening {content : String} {ts : List Token} (h : Scans content.toList ts) :
    Scans (opening content).toList (ts ++ [.openBrace]) := by
  have hbrace : Scans ['\x7b'] [.openBrace] := scans_nil.mark rfl
  have hblank : Scans [' ', '\x7b'] [.openBrace] := hbrace.blank (by decide)
  rw [opening, String.toList_append]
  exact h.append hblank fun rest _ => delimited_cons (by decide) _

theorem scans_closing : Scans closing.toList [.closeBrace] := scans_nil.mark rfl

def linesBelow (lines : List Line) : List Char :=
  lines.flatMap fun l => '\n' :: l.text.toList

theorem linesBelow_append (l r : List Line) :
    linesBelow (l ++ r) = linesBelow l ++ linesBelow r :=
  List.flatMap_append

theorem delimited_linesBelow (lines : List Line) {rest : List Char} (h : Delimited rest) :
    Delimited (linesBelow lines ++ rest) := by
  cases lines with
  | nil => exact h
  | cons l lines => exact delimited_cons (by decide) _

theorem toList_intercalate_lines (l : Line) (lines : List Line) :
    ("\n".intercalate ((l :: lines).map Line.text)).toList = l.text.toList ++ linesBelow lines := by
  induction lines generalizing l with
  | nil => simp [linesBelow]
  | cons l' lines ih =>
      rw [List.map_cons, List.map_cons, String.intercalate_cons_cons, ← List.map_cons,
        String.toList_append, String.toList_append, ih l', List.append_assoc]
      rfl

theorem Token.Scans.lines_append {l r : List Line} {ts us : List Token}
    (hl : Scans (linesBelow l) ts) (hr : Scans (linesBelow r) us) :
    Scans (linesBelow (l ++ r)) (ts ++ us) := by
  rw [linesBelow_append]
  exact hl.append hr fun rest hrest => delimited_linesBelow r hrest

theorem scans_line {depth : Nat} {content : String} {ts : List Token}
    (h : Scans content.toList ts) : Scans (linesBelow [⟨depth, content⟩]) ts := by
  intro rest hrest
  have htext : linesBelow [⟨depth, content⟩] ++ rest =
      '\n' :: (List.replicate (2 * depth) ' ' ++ (content.toList ++ rest)) := by
    simp [linesBelow, Line.text]
  rw [htext, tokens_blank (by decide), tokens_blanks, h rest hrest]

mutual

theorem scans_selection (depth : Nat) : (selection : Selection) →
    (∀ name ∈ selection.names, IsName name) →
      Scans (linesBelow (selection.lines depth)) selection.tokens
  | .field name, h => scans_line (scans_isName (h name List.mem_cons_self))
  | .object name members, h => by
      have ih := scans_members (depth + 1) members fun other hother =>
        h other (List.mem_cons_of_mem _ hother)
      have hhead : Scans (linesBelow [⟨depth, opening name⟩]) [.name name, .openBrace] :=
        scans_line (scans_opening (scans_isName (h name List.mem_cons_self)))
      have hend : Scans (linesBelow [⟨depth, closing⟩]) [.closeBrace] := scans_line scans_closing
      exact hhead.lines_append (ih.lines_append hend)

theorem scans_members (depth : Nat) : (members : List Selection) →
    (∀ name ∈ Selection.namesOfMembers members, IsName name) →
      Scans (linesBelow (Selection.linesOfMembers depth members))
        (Selection.tokensOfMembers members)
  | [], _ => scans_nil
  | member :: rest, h => by
      have ih := scans_selection depth member fun name hname =>
        h name (List.mem_append_left _ hname)
      have ih' := scans_members depth rest fun name hname =>
        h name (List.mem_append_right _ hname)
      exact ih.lines_append ih'

end

theorem upperCase_of_startsName {c : Char} (h : startsName c = true) :
    upperCase c = [c.toUpper] ∧ startsName c.toUpper = true := by
  have hlt : c.toNat < 0x80 := by
    have hletter : (c == '_' || (decide ('A'.val ≤ c.val ∧ c.val ≤ 'Z'.val) ||
        (decide ('a'.val ≤ c.val) && decide (c.val ≤ 'z'.val)))) = true := h
    simp only [Bool.or_eq_true, Bool.and_eq_true, beq_iff_eq, decide_eq_true_eq,
      UInt32.le_iff_toNat_le] at hletter
    have hval : c.toNat = c.val.toNat := rfl
    rcases hletter with rfl | ⟨_, hz⟩ | ⟨_, hz⟩
    · decide
    · exact Nat.lt_of_le_of_lt (hval ▸ hz) (by decide)
    · exact Nat.lt_of_le_of_lt (hval ▸ hz) (by decide)
  have hall : ∀ n < 0x80, startsName (Char.ofNat n) = true →
      startsName (Char.ofNat n).toUpper = true := by decide
  have hstarts := hall c.toNat hlt
  rw [Char.ofNat_toNat] at hstarts
  exact ⟨upperCase_of_lt hlt, hstarts h⟩

/-- In pascal case a name has its first letter in upper case, which still begins a name. -/
theorem exists_toList_pascal {name : String} (h : IsName name) :
    ∃ c rest, name.toList = c :: rest ∧ (Naming.pascal name).toList = c.toUpper :: rest ∧
      startsName c.toUpper = true ∧ rest.all continuesName = true := by
  unfold IsName at h
  cases hname : name.toList with
  | nil =>
      rw [hname] at h
      nomatch h
  | cons c rest =>
      rw [hname, isName, Bool.and_eq_true] at h
      obtain ⟨hupper, hstarts⟩ := upperCase_of_startsName h.1
      have hpascal : (Naming.pascal name).toList = c.toUpper :: rest := by
        rw [Naming.pascal_eq_ofList hname, hupper, String.toList_ofList, List.singleton_append]
      exact ⟨c, rest, rfl, hpascal, hstarts, h.2⟩

theorem isName_pascal {name : String} (h : IsName name) : IsName (Naming.pascal name) := by
  obtain ⟨c, rest, _, hpascal, hstarts, hrest⟩ := exists_toList_pascal h
  rw [IsName, hpascal, isName, hstarts, hrest]
  rfl

theorem isName_kind (kind : OperationKind) : IsName (Keyword.keyword kind) := by
  cases kind <;> decide

namespace Document

variable {d : Document}

theorem scans_header (h : d.Named) :
    Scans d.header.toList (.name (Keyword.keyword d.kind) :: .name d.operationName ::
      groupTokens (d.declared.entries.map definitionTokens)) := by
  have hgroup : Scans (parenthesized d.definitions).toList
      (groupTokens (d.declared.entries.map definitionTokens)) :=
    scans_parenthesized fun e he => scans_definition (h.variableName e he) (h.type e he)
  have hname := (scans_isName (isName_pascal h.root)).append hgroup fun rest hrest =>
    delimited_parenthesized d.definitions hrest
  have hblank : Scans (' ' :: (d.operationName.toList ++ (parenthesized d.definitions).toList))
      (.name d.operationName :: groupTokens (d.declared.entries.map definitionTokens)) :=
    hname.blank (by decide)
  have hall := (scans_isName (isName_kind d.kind)).append hblank fun rest _ =>
    delimited_cons (by decide) _
  simpa [header, operationName] using hall

theorem scans_root (h : d.Named) :
    Scans d.root.toList (.name d.name :: groupTokens (d.declared.keys.map argumentTokens)) := by
  have hnames : ∀ name ∈ d.declared.keys, IsName name := by
    intro name hname
    obtain ⟨e, he, rfl⟩ := List.mem_map.1 hname
    exact h.variableName e he
  have hgroup : Scans (parenthesized d.arguments).toList
      (groupTokens (d.declared.keys.map argumentTokens)) :=
    scans_parenthesized fun name hname => scans_argument (hnames name hname)
  rw [root, String.toList_append]
  exact (scans_isName h.root).append hgroup fun rest hrest =>
    delimited_parenthesized d.arguments hrest

theorem scans_body (h : d.Named) :
    Scans (linesBelow (d.body ++ [⟨0, closing⟩]))
      (.name d.name :: (groupTokens (d.declared.keys.map argumentTokens) ++
        selectionTokens d.selection?)) := by
  have hend : Scans (linesBelow [⟨0, closing⟩]) [.closeBrace] := scans_line scans_closing
  cases hsel : d.selection? with
  | none =>
      rw [body, hsel]
      exact (scans_line (scans_root h)).lines_append hend
  | some members =>
      have hmembers := scans_members 2 _
        (Selection.forall_names_filled (by decide) (h.selection members hsel))
      have hclose : Scans (linesBelow [⟨1, closing⟩]) [.closeBrace] := scans_line scans_closing
      have hopen : Scans (linesBelow [⟨1, opening d.root⟩]) _ :=
        scans_line (scans_opening (scans_root h))
      have hall := (hopen.lines_append (hmembers.lines_append hclose)).lines_append hend
      rw [body, hsel]
      simpa [selectionTokens] using hall

/-- The text of a document stands for its tokens. -/
theorem tokens_text (h : d.Named) : Token.tokens d.text.toList = some d.tokens := by
  have hlines : d.text.toList =
      (opening d.header).toList ++ linesBelow (d.body ++ [⟨0, closing⟩]) := by
    have hfirst : Line.text ⟨0, opening d.header⟩ = opening d.header := by simp [Line.text]
    rw [text, lines, toList_intercalate_lines, hfirst]
  have hall := (scans_opening (scans_header h)).append (scans_body h) fun rest hrest =>
    delimited_linesBelow _ hrest
  have hscan := hall [] delimited_nil
  rw [List.append_nil, tokens_nil] at hscan
  rw [hlines, hscan]
  simp [Document.tokens]

/-- The whole text of a document is read, and what is found is the kind of the document, its root
field with the first letter in upper case as the name of the operation, the variables with their
types in order, one argument for each of them that is bound to it, and the selection set with
`__typename` in every set that is empty. -/
theorem read?_text (h : d.Named) :
    ∃ r, Reading.read? d.text = some r ∧
      r.kind = d.kind ∧
      (∃ c rest, d.name.toList = c :: rest ∧ r.operationName.toList = c.toUpper :: rest) ∧
      r.operationName = (Request.ofDocument d).operationName ∧
      r.definitions = d.declared.entries.map (fun e => (e.1, e.2.type)) ∧
      r.definitions.map Prod.fst = (Request.ofDocument d).values.keys ∧
      r.root = d.name ∧
      r.arguments = d.declared.keys.map (fun name => (name, name)) ∧
      r.selection? = d.selection?.map SelectionSet.completed := by
  have hread : Reading.read? d.text = Reading.ofTokens? d.tokens := by
    rw [Reading.read?, tokens_text h, Option.bind_some]
  rw [Reading.ofTokens?_tokens h.type] at hread
  obtain ⟨c, rest, hname, hpascal, _, _⟩ := exists_toList_pascal h.root
  have hkeys : (d.declared.entries.map fun e => (e.1, e.2.type)).map Prod.fst =
      (Request.ofDocument d).values.keys := by
    have hvalues : (Request.ofDocument d).values.keys = d.declared.keys :=
      OrderedMap.keys_map Variable.value d.declared
    rw [hvalues, List.map_map]
    rfl
  have hselection : d.selection?.map SelectionSet.filled =
      d.selection?.map SelectionSet.completed :=
    Option.map_congr fun members _ => Selection.filledSet_eq_completed members
  exact ⟨_, hread, rfl, ⟨c, rest, hname, hpascal⟩, rfl, rfl, hkeys, rfl, rfl, hselection⟩

def pageOfPosts : Document where
  kind := .query
  name := "listPosts"
  selection? := some [.object "items" [.field "id", .object "author" []], .field "nextToken"]
  declared := .ofList [("id", ⟨"ID!", .string "7"⟩), ("limit", ⟨"Int", .int 10⟩)]

theorem read?_text_pageOfPosts : pageOfPosts.Named ∧
    ∃ r, Reading.read? pageOfPosts.text = some r ∧
      r.kind = .query ∧ r.operationName = "ListPosts" ∧
      (Request.ofDocument pageOfPosts).operationName = "ListPosts" ∧
      r.definitions = [("id", "ID!"), ("limit", "Int")] ∧ r.root = "listPosts" ∧
      r.arguments = [("id", "id"), ("limit", "limit")] ∧
      r.selection? = some [.object "items" [.field "id",
        .object "author" [.field "__typename"]], .field "nextToken"] := by
  have htypes : ∀ type ∈ ["ID!", "Int"], IsType type := by
    intro type htype
    rcases List.mem_cons.1 htype with rfl | htype
    · exact ⟨"ID", by decide, .inr rfl⟩
    · obtain rfl := List.mem_singleton.1 htype
      exact ⟨"Int", by decide, .inl rfl⟩
  have hnamed : pageOfPosts.Named := by
    refine ⟨by decide, by decide, ?_, ?_⟩
    · exact fun e he => htypes e.2.type (List.mem_map_of_mem (f := fun e => e.2.type) he)
    · rintro members ⟨⟩
      decide
  obtain ⟨r, hread, hkind, ⟨c, rest, hname, hupper⟩, hrequest, hdefinitions, _, hroot, harguments,
    hselection⟩ := read?_text hnamed
  have hoperation : r.operationName = "ListPosts" := by
    obtain ⟨rfl, rfl⟩ := List.cons.inj hname
    exact String.toList_inj.1 hupper
  exact ⟨hnamed, r, hread, hkind, hoperation, hrequest ▸ hoperation, hdefinitions, hroot,
    harguments, hselection⟩

end Document

end DataApi
