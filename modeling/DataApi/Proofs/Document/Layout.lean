import DataApi.Proofs.Document.Braces
import DataApi.Proofs.Document.RoundTrip

/-!
# The lines of a document

How the text of a document is laid out, as it can be seen in the text alone. Split at its line
breaks it has one line for the header, one for each selection from the root field on, in reading
order, and one for each brace that closes; and how far a line is indented can be told from the
braces in front of it (`text_layout`).

The lines of a document know how deep they stand. `Indented n` compares that with the braces: of the
lines that follow a text in which `n` braces are open, each stands as deep as braces are open before
it. Below a selection the braces are balanced, so the comparison can be taken up behind it.
-/

namespace DataApi

def IsPlain (text : String) : Prop :=
  ∀ c ∈ text.toList, c.isWhitespace = false ∧ c ≠ '\x7b' ∧ c ≠ '\x7d'

instance : DecidablePred IsPlain := fun text =>
  List.decidableBAll (fun c : Char => c.isWhitespace = false ∧ c ≠ '\x7b' ∧ c ≠ '\x7d') text.toList

/-- No name and no type in a document holds a blank or a brace. -/
structure Document.Plain (d : Document) : Prop where
  root : IsPlain d.name
  variableName : ∀ e ∈ d.declared.entries, IsPlain e.1
  type : ∀ e ∈ d.declared.entries, IsPlain e.2.type
  selection : ∀ members, d.selection? = some members →
    ∀ name ∈ Selection.namesOfMembers members, IsPlain name

namespace Selection

mutual

def contents : Selection → List String
  | .field name => [name]
  | .object name members => (name ++ " \x7b") :: (contentsOfMembers members ++ ["\x7d"])

def contentsOfMembers : List Selection → List String
  | [] => []
  | member :: rest => member.contents ++ contentsOfMembers rest

end

end Selection

def withItems (text : String) : List String → String
  | [] => text
  | item :: rest => text ++ "(" ++ ", ".intercalate (item :: rest) ++ ")"

namespace Document

def kindText (d : Document) : String :=
  match d.kind with
  | .query => "query"
  | .mutation => "mutation"
  | .subscription => "subscription"

/-- The kind, the name with its first character in upper case, and the variables with their types.
-/
def headerText (d : Document) : String :=
  let name := String.ofList ((d.name.toList.take 1).flatMap upperCase ++ d.name.toList.drop 1)
  withItems (d.kindText ++ " " ++ name)
    (d.declared.entries.map fun e => "$" ++ e.1 ++ ": " ++ e.2.type)

def rootText (d : Document) : String :=
  withItems d.name (d.declared.entries.map fun e => e.1 ++ ": $" ++ e.1)

/-- What is written for a document, line by line and without indentation. -/
def contents (d : Document) : List String :=
  match d.selection? with
  | none => [d.headerText ++ " \x7b", d.rootText, "\x7d"]
  | some members => (d.headerText ++ " \x7b") :: (d.rootText ++ " \x7b") ::
      (Selection.contentsOfMembers (SelectionSet.completed members) ++ ["\x7d", "\x7d"])

def HasEmptyName (d : Document) : Prop :=
  d.name = "" ∧ d.declared.entries = [] ∨
    ∃ members, d.selection? = some members ∧ "" ∈ Selection.namesOfMembers members

def rootSelection (d : Document) : Selection :=
  match d.selection? with
  | none => .field d.root
  | some members => .object d.root (SelectionSet.filled members)

end Document

theorem withItems_eq (text : String) (items : List String) :
    withItems text items = text ++ parenthesized items := by
  cases items with
  | nil => rw [withItems, parenthesized, List.isEmpty_nil, if_pos rfl, String.append_empty]
  | cons item items =>
      rw [withItems, parenthesized_cons, String.append_assoc, String.append_assoc,
        String.append_assoc]

namespace Document

theorem headerText_eq (d : Document) : d.headerText = d.header := by
  have hkind : d.kindText = Keyword.keyword d.kind := by
    unfold kindText
    cases d.kind <;> rfl
  have hname : String.ofList ((d.name.toList.take 1).flatMap upperCase ++ d.name.toList.drop 1) =
      d.operationName := by
    unfold operationName Naming.pascal
    cases d.name.toList with
    | nil => rfl
    | cons c rest => simp
  rw [headerText, withItems_eq, hkind, hname]
  rfl

theorem rootText_eq (d : Document) : d.rootText = d.root := by
  have harguments : (d.declared.entries.map fun e => e.1 ++ ": $" ++ e.1) = d.arguments := by
    rw [arguments, OrderedMap.keys, List.map_map]
    rfl
  rw [rootText, withItems_eq, harguments]
  rfl

end Document

theorem IsPlain.inline {text : String} (h : IsPlain text) : Inline text.toList := by
  intro c hc
  refine ⟨?_, (h c hc).2⟩
  rintro rfl
  exact absurd (h _ hc).1 (by decide)

theorem Inline.parenthesized {items : List String} (h : ∀ item ∈ items, Inline item.toList) :
    Inline (parenthesized items).toList := by
  cases items with
  | nil => nofun
  | cons item items =>
      have hopen : Inline "(".toList := by decide
      have hsep : Inline ", ".toList := by decide
      have hclose : Inline ")".toList := by decide
      have hitems : ∀ other ∈ (item :: items).map String.toList, Inline other := by
        intro other hother
        obtain ⟨item', hitem', rfl⟩ := List.mem_map.1 hother
        exact h item' hitem'
      rw [parenthesized_cons, String.toList_append, String.toList_append,
        String.toList_intercalate]
      exact (hopen.append (hsep.intercalate hitems)).append hclose

namespace Document

variable {d : Document}

theorem inline_definition {e : String × Variable} (hname : IsPlain e.1) (htype : IsPlain e.2.type) :
    Inline ("$" ++ e.1 ++ ": " ++ e.2.type).toList := by
  have hdollar : Inline "$".toList := by decide
  have hcolon : Inline ": ".toList := by decide
  rw [String.toList_append, String.toList_append, String.toList_append]
  exact ((hdollar.append hname.inline).append hcolon).append htype.inline

theorem inline_argument {name : String} (h : IsPlain name) :
    Inline (name ++ ": $" ++ name).toList := by
  have hcolon : Inline ": $".toList := by decide
  rw [String.toList_append, String.toList_append]
  exact (h.inline.append hcolon).append h.inline

theorem inline_header (h : d.Plain) : Inline d.header.toList := by
  have hkind : Inline (Keyword.keyword d.kind).toList := by cases d.kind <;> decide
  have hblank : Inline " ".toList := by decide
  have hdefinitions : Inline (parenthesized d.definitions).toList := by
    apply Inline.parenthesized
    intro item hitem
    obtain ⟨e, he, rfl⟩ := List.mem_map.1 hitem
    exact inline_definition (h.variableName e he) (h.type e he)
  rw [header, String.toList_append, String.toList_append, String.toList_append]
  exact ((hkind.append hblank).append (inline_pascal h.root.inline)).append hdefinitions

theorem inline_root (h : d.Plain) : Inline d.root.toList := by
  have harguments : Inline (parenthesized d.arguments).toList := by
    apply Inline.parenthesized
    intro item hitem
    obtain ⟨name, hname, rfl⟩ := List.mem_map.1 hitem
    obtain ⟨e, he, rfl⟩ := List.mem_map.1 hname
    exact inline_argument (h.variableName e he)
  rw [root, String.toList_append]
  exact h.root.inline.append harguments

end Document

def Line.closes (l : Line) : Int := if l.content = closing then 1 else 0

/-- Each line is as deep as braces are open before it, of which `n` are open before the first line.
-/
def Indented : Int → List Line → Prop
  | _, [] => True
  | n, l :: ls => (l.depth : Int) = n - l.closes ∧ Indented (n + openBraces l.text.toList) ls

theorem openBraces_text (l : Line) : openBraces l.text.toList = openBraces l.content.toList := by
  rw [Line.text, String.toList_append, String.toList_ofList, openBraces_append,
    (unbraced_blanks (2 * l.depth)).openBraces_eq_zero, Int.zero_add]

theorem openBraces_linesBelow (ls : List Line) :
    openBraces (linesBelow ls) = openBraces (ls.map fun l => l.text.toList).flatten := by
  induction ls with
  | nil => rfl
  | cons l ls ih =>
      have hsplit : linesBelow (l :: ls) = ['\n'] ++ (l.text.toList ++ linesBelow ls) := rfl
      have hnewline : openBraces ['\n'] = 0 := rfl
      rw [hsplit, openBraces_append, openBraces_append, ih, hnewline, List.map_cons,
        List.flatten_cons, openBraces_append]
      omega

theorem indented_append {n : Int} {ls rs : List Line} :
    Indented n (ls ++ rs) ↔ Indented n ls ∧ Indented (n + openBraces (linesBelow ls)) rs := by
  rw [openBraces_linesBelow]
  induction ls generalizing n with
  | nil => simp [Indented]
  | cons l ls ih =>
      rw [List.cons_append, Indented, Indented, ih, List.map_cons, List.flatten_cons,
        openBraces_append, ← Int.add_assoc, and_assoc]

theorem Inline.ne_closing {text : String} (h : Inline text.toList) : text ≠ closing := by
  rintro rfl
  exact absurd h (by decide)

theorem opening_ne_closing (content : String) : opening content ≠ closing := by
  intro h
  have hmem : '\x7b' ∈ (opening content).toList := by simp [opening]
  rw [h] at hmem
  exact absurd hmem (by decide)

theorem openBraces_opening {content : String} (h : Inline content.toList) :
    openBraces (opening content).toList = 1 := by
  rw [opening, String.toList_append, openBraces_append, h.unbraced.openBraces_eq_zero]
  rfl

def lineStart (depth : Nat) : List Char := '\n' :: List.replicate (2 * depth) ' '

theorem unbraced_lineStart (depth : Nat) : Unbraced (lineStart depth) :=
  List.forall_mem_cons.2 ⟨by decide, unbraced_blanks (2 * depth)⟩

theorem linesBelow_cons (depth : Nat) (content : String) (ls : List Line) :
    linesBelow (⟨depth, content⟩ :: ls) = lineStart depth ++ (content.toList ++ linesBelow ls) := by
  simp [linesBelow, lineStart, Line.text]

theorem indented_object {depth : Nat} {name : String} {ls : List Line} (hname : Inline name.toList)
    (hls : Indented (depth + 1 : Nat) ls) (hbalanced : Balanced (linesBelow ls)) :
    Indented depth (⟨depth, opening name⟩ :: (ls ++ [⟨depth, closing⟩])) := by
  have hopens : Line.closes ⟨depth, opening name⟩ = 0 := if_neg (opening_ne_closing name)
  have hcloses : Line.closes ⟨depth, closing⟩ = 1 := if_pos rfl
  refine ⟨by rw [hopens, Int.sub_zero], ?_⟩
  rw [openBraces_text, openBraces_opening hname, indented_append, hbalanced.1]
  refine ⟨hls, ?_, trivial⟩
  change (depth : Int) = _
  rw [hcloses]
  omega

theorem balanced_object {depth : Nat} {name : String} {ls : List Line} (hname : Inline name.toList)
    (hls : Balanced (linesBelow ls)) :
    Balanced (linesBelow (⟨depth, opening name⟩ :: (ls ++ [⟨depth, closing⟩]))) := by
  have hblank : Unbraced [' '] := unbraced_blanks 1
  have hhead := ((unbraced_lineStart depth).append hname.unbraced).append hblank
  have hbody := (hls.append (unbraced_lineStart depth).balanced).braces
  have hend : linesBelow [⟨depth, closing⟩] = lineStart depth ++ ['\x7d'] :=
    linesBelow_cons depth closing []
  have htext : linesBelow (⟨depth, opening name⟩ :: (ls ++ [⟨depth, closing⟩])) =
      lineStart depth ++ name.toList ++ [' '] ++
        '\x7b' :: (linesBelow ls ++ lineStart depth ++ ['\x7d']) := by
    rw [linesBelow_cons, linesBelow_append, hend]
    simp [opening]
  rw [htext]
  exact hhead.balanced.append hbody

namespace Selection

mutual

/-- The lines of a selection are as deep as the braces in front of them say, and leave none open. -/
theorem indented_lines (depth : Nat) : (selection : Selection) →
    (∀ name ∈ selection.names, Inline name.toList) →
      Indented depth (selection.lines depth) ∧ Balanced (linesBelow (selection.lines depth))
  | .field name, h => by
      have hname : Inline name.toList := h name List.mem_cons_self
      have hcloses : Line.closes ⟨depth, name⟩ = 0 := if_neg hname.ne_closing
      refine ⟨⟨by rw [hcloses, Int.sub_zero], trivial⟩, ?_⟩
      rw [lines, linesBelow_cons]
      exact (unbraced_lineStart depth).balanced.append
        (hname.unbraced.balanced.append Balanced.nil)
  | .object name members, h => by
      have hname : Inline name.toList := h name List.mem_cons_self
      obtain ⟨hindented, hbalanced⟩ := indented_linesOfMembers (depth + 1) members
        fun other hother => h other (List.mem_cons_of_mem name hother)
      exact ⟨indented_object hname hindented hbalanced, balanced_object hname hbalanced⟩

theorem indented_linesOfMembers (depth : Nat) : (members : List Selection) →
    (∀ name ∈ namesOfMembers members, Inline name.toList) →
      Indented depth (linesOfMembers depth members) ∧
        Balanced (linesBelow (linesOfMembers depth members))
  | [], _ => ⟨trivial, Balanced.nil⟩
  | member :: rest, h => by
      obtain ⟨hmember, hbalanced⟩ := indented_lines depth member fun name hname =>
        h name (List.mem_append_left _ hname)
      obtain ⟨hrest, hbalancedRest⟩ := indented_linesOfMembers depth rest fun name hname =>
        h name (List.mem_append_right _ hname)
      rw [linesOfMembers, linesBelow_append, indented_append, hbalanced.1, Int.add_zero]
      exact ⟨⟨hmember, hrest⟩, hbalanced.append hbalancedRest⟩

end

mutual

theorem map_content_lines (depth : Nat) : (selection : Selection) →
    (selection.lines depth).map Line.content = selection.contents
  | .field name => rfl
  | .object name members => by
      have ih := map_content_linesOfMembers (depth + 1) members
      rw [lines, List.map_cons, List.map_append, ih, contents]
      rfl

theorem map_content_linesOfMembers (depth : Nat) : (members : List Selection) →
    (linesOfMembers depth members).map Line.content = contentsOfMembers members
  | [] => rfl
  | member :: rest => by
      have ih := map_content_lines depth member
      have ih' := map_content_linesOfMembers depth rest
      rw [linesOfMembers, List.map_append, ih, ih', contentsOfMembers]

end

mutual

theorem mem_contents {content : String} : (selection : Selection) → content ∈ selection.contents →
    content = closing ∨ ∃ name ∈ selection.names, content = name ∨ content = opening name
  | .field name, h => .inr ⟨name, List.mem_cons_self, .inl (List.mem_singleton.1 h)⟩
  | .object name members, h => by
      rcases List.mem_cons.1 h with h | h
      · exact .inr ⟨name, List.mem_cons_self, .inr h⟩
      · rcases List.mem_append.1 h with h | h
        · rcases mem_contentsOfMembers members h with hclosing | ⟨other, hother, hcontent⟩
          · exact .inl hclosing
          · exact .inr ⟨other, List.mem_cons_of_mem name hother, hcontent⟩
        · exact .inl (List.mem_singleton.1 h)

theorem mem_contentsOfMembers {content : String} : (members : List Selection) →
    content ∈ contentsOfMembers members →
    content = closing ∨ ∃ name ∈ namesOfMembers members, content = name ∨ content = opening name
  | [], h => nomatch h
  | member :: rest, h => by
      rcases List.mem_append.1 h with h | h
      · rcases mem_contents member h with hclosing | ⟨name, hname, hcontent⟩
        · exact .inl hclosing
        · exact .inr ⟨name, List.mem_append_left _ hname, hcontent⟩
      · rcases mem_contentsOfMembers rest h with hclosing | ⟨name, hname, hcontent⟩
        · exact .inl hclosing
        · exact .inr ⟨name, List.mem_append_right _ hname, hcontent⟩

end

end Selection

theorem Indented.depth_eq {n : Int} {before after : List Line} {l : Line}
    (h : Indented n (before ++ l :: after)) :
    (l.depth : Int) = n + openBraces (linesBelow before) - l.closes :=
  (indented_append.1 h).2.1

namespace Document

variable {d : Document}

theorem body_eq (d : Document) : d.body = d.rootSelection.lines 1 := by
  unfold body rootSelection
  cases d.selection? <;> rfl

/-- A document is laid out like a selection: the header opens an object whose one member is the root
field. -/
theorem lines_eq (d : Document) :
    d.lines = (Selection.object d.header [d.rootSelection]).lines 0 := by
  simp [lines, body_eq, Selection.lines, Selection.linesOfMembers]

theorem contents_eq (d : Document) :
    d.contents = (Selection.object d.header [d.rootSelection]).contents := by
  unfold contents rootSelection
  cases d.selection? with
  | none =>
      simp [Selection.contents, Selection.contentsOfMembers, headerText_eq, rootText_eq]
  | some members =>
      simp [Selection.contents, Selection.contentsOfMembers, headerText_eq, rootText_eq,
        Selection.filledSet_eq_completed]

theorem map_content_lines (d : Document) : d.lines.map Line.content = d.contents := by
  rw [lines_eq, contents_eq, Selection.map_content_lines]

/-- What holds of the header, of the root field, of the name of the type and of what is selected
holds of all names in the layout of a document. -/
theorem forall_names {P : String → Prop} (hheader : P d.header) (hroot : P d.root)
    (htypename : P Naming.typename)
    (hselected : ∀ members, d.selection? = some members →
      ∀ name ∈ Selection.namesOfMembers members, P name) :
    ∀ name ∈ (Selection.object d.header [d.rootSelection]).names, P name := by
  have hrootNames : ∀ name ∈ d.rootSelection.names, P name := by
    unfold rootSelection
    cases hsel : d.selection? with
    | none =>
        intro name hname
        rw [List.mem_singleton.1 hname]
        exact hroot
    | some members =>
        have hmembers := Selection.forall_names_filled htypename (hselected members hsel)
        intro name hname
        rcases List.mem_cons.1 hname with rfl | hname
        · exact hroot
        · exact hmembers name hname
  intro name hname
  rcases List.mem_cons.1 hname with rfl | hname
  · exact hheader
  · rw [Selection.namesOfMembers, Selection.namesOfMembers, List.append_nil] at hname
    exact hrootNames name hname

theorem inline_names (h : d.Plain) :
    ∀ name ∈ (Selection.object d.header [d.rootSelection]).names, Inline name.toList :=
  forall_names (inline_header h) (inline_root h) (by decide) fun members hsel name hname =>
    (h.selection members hsel name hname).inline

theorem indented_lines (h : d.Plain) : Indented 0 d.lines := by
  rw [lines_eq]
  exact (Selection.indented_lines 0 _ (inline_names h)).1

theorem mem_contents {content : String} (h : content ∈ d.contents) : content = closing ∨
    ∃ name ∈ (Selection.object d.header [d.rootSelection]).names,
      content = name ∨ content = opening name :=
  Selection.mem_contents _ (contents_eq d ▸ h)

theorem newline_not_mem_content (h : d.Plain) {content : String} (hcontent : content ∈ d.contents) :
    '\n' ∉ content.toList := by
  rcases mem_contents hcontent with rfl | ⟨name, hname, rfl | rfl⟩
  · decide
  · exact (inline_names h content hname).newline_not_mem
  · rw [opening, String.toList_append, List.mem_append, not_or]
    exact ⟨(inline_names h name hname).newline_not_mem, by decide⟩

theorem splitOn_text (h : d.Plain) :
    d.text.toList.splitOn '\n' = d.lines.map fun l => l.text.toList := by
  have htext : d.text.toList = ['\n'].intercalate (d.lines.map fun l => l.text.toList) := by
    rw [text, String.toList_intercalate, List.map_map]
    rfl
  rw [htext]
  refine List.splitOn_intercalate '\n' ?_ (List.cons_ne_nil _ _)
  intro line hline
  obtain ⟨l, hl, rfl⟩ := List.mem_map.1 hline
  have hcontent : l.content ∈ d.contents := by
    rw [← map_content_lines]
    exact List.mem_map_of_mem hl
  rw [Line.text, String.toList_append, String.toList_ofList, List.mem_append, not_or]
  exact ⟨fun hmem => absurd (List.eq_of_mem_replicate hmem) (by decide),
    newline_not_mem_content h hcontent⟩

theorem head?_ne_blank (h : d.Plain) :
    ∀ name ∈ (Selection.object d.header [d.rootSelection]).names, name.toList.head? ≠ some ' ' := by
  have hplain {name : String} (hname : IsPlain name) : name.toList.head? ≠ some ' ' := by
    intro hblank
    exact absurd (hname ' ' (List.mem_of_mem_head? hblank)).1 (by decide)
  refine forall_names ?_ ?_ (by decide) fun members hsel name hname =>
    hplain (h.selection members hsel name hname)
  · cases hkind : d.kind <;> simp [header, hkind, Keyword.keyword]
  · have harguments : (parenthesized d.arguments).toList.head? ≠ some ' ' := by
      cases d.arguments with
      | nil => decide
      | cons item items => simp [parenthesized_cons]
    rw [root, String.toList_append, List.head?_append, ne_eq, Option.or_eq_some_iff]
    rintro (hname | ⟨_, hblank⟩)
    · exact hplain h.root hname
    · exact harguments hblank

theorem hasEmptyName_of_empty (d : Document) :
    ∀ name ∈ (Selection.object d.header [d.rootSelection]).names, name = "" → d.HasEmptyName := by
  have htypename : Naming.typename ≠ "" := by decide
  refine forall_names ?_ ?_ (fun hempty => absurd hempty htypename)
    fun members hsel name hname hempty => .inr ⟨members, hsel, hempty ▸ hname⟩
  · intro hempty
    have hword : (Keyword.keyword d.kind).toList ≠ [] := by cases d.kind <;> decide
    rw [header, String.append_eq_empty_iff, String.append_eq_empty_iff,
      String.append_eq_empty_iff] at hempty
    exact absurd (String.toList_eq_nil_iff.2 hempty.1.1.1) hword
  · intro hempty
    rw [root, String.append_eq_empty_iff] at hempty
    refine .inl ⟨hempty.1, ?_⟩
    have harguments := hempty.2
    rw [arguments, OrderedMap.keys] at harguments
    cases hentries : d.declared.entries with
    | nil => rfl
    | cons e entries => simp [hentries, parenthesized_cons] at harguments

theorem eq_of_head?_eq_blank (h : d.Plain) {content : String} (hcontent : content ∈ d.contents)
    (hblank : content.toList.head? = some ' ') : content = opening "" ∧ d.HasEmptyName := by
  rcases mem_contents hcontent with rfl | ⟨name, hname, rfl | rfl⟩
  · exact absurd hblank (by decide)
  · exact absurd hblank (head?_ne_blank h content hname)
  · rw [opening, String.toList_append, List.head?_append, Option.or_eq_some_iff] at hblank
    rcases hblank with hblank | ⟨hempty, _⟩
    · exact absurd hblank (head?_ne_blank h name hname)
    · rw [List.head?_eq_none_iff, String.toList_eq_nil_iff] at hempty
      exact ⟨by rw [hempty], hasEmptyName_of_empty d name hname hempty⟩

theorem toList_text (d : Document) :
    d.text.toList = (d.header.toList ++ [' ']) ++
      '\x7b' :: ((linesBelow (d.rootSelection.lines 1) ++ ['\n']) ++ ['\x7d']) := by
  have hfirst : Line.text ⟨0, opening d.header⟩ = opening d.header := by simp [Line.text]
  have hlast : linesBelow [⟨0, closing⟩] = ['\n', '\x7d'] := rfl
  rw [text, lines, toList_intercalate_lines, hfirst, linesBelow_append, hlast, body_eq]
  simp [opening]

/-- Each line stands as far to the right as braces are open before it, and holds what is written
there. -/
theorem line_eq (h : d.Plain) {before after : List (List Char)} {line : List Char}
    (hsplit : d.text.toList.splitOn '\n' = before ++ line :: after) :
    ∃ (content : String) (depth : Nat), d.contents[before.length]? = some content ∧
      line = List.replicate (2 * depth) ' ' ++ content.toList ∧
      (depth : Int) = openBraces before.flatten - (if content = closing then 1 else 0) := by
  rw [splitOn_text h] at hsplit
  obtain ⟨ls, rest, hlines, rfl, hrest⟩ := List.map_eq_append_iff.1 hsplit
  obtain ⟨l, ls', rfl, rfl, _⟩ := List.map_eq_cons_iff.1 hrest
  have hcontent : d.contents[ls.length]? = some l.content := by
    rw [← map_content_lines, hlines]
    simp
  have hdepth := Indented.depth_eq (hlines ▸ indented_lines h)
  rw [Int.zero_add, openBraces_linesBelow] at hdepth
  refine ⟨l.content, l.depth, by rwa [List.length_map], ?_, hdepth⟩
  rw [Line.text, String.toList_append, String.toList_ofList]

/-- The text of a document, split into lines, holds what is to be written for the header, for each
selection from the root field on, and for each end of a selection, one line for each, in order, and
ends in the last brace. The indentation of a line is two blanks for each brace that is open before
it, where a brace counts as closed on the line that closes it; nothing that is written begins with a
blank, unless it is the brace behind an empty name. No brace is closed too early, and from the brace
of the header to the end of the text there is always one open. -/
theorem text_layout (h : d.Plain) :
    let lines := d.text.toList.splitOn '\n'
    lines.length = d.contents.length ∧ lines.getLast? = some ['\x7d'] ∧
    (∀ before line after, lines = before ++ line :: after →
      ∃ (content : String) (depth : Nat), d.contents[before.length]? = some content ∧
        line = List.replicate (2 * depth) ' ' ++ content.toList ∧
        (depth : Int) = openBraces before.flatten - (if content = "\x7d" then 1 else 0)) ∧
    (∀ content ∈ d.contents, content.toList.head? = some ' ' →
      content = " \x7b" ∧ d.HasEmptyName) ∧
    ∀ before after, d.text.toList = before ++ after →
      0 ≤ openBraces before ∧
        (openBraces before = 0 ↔ before <+: d.headerText.toList ++ [' '] ∨ after = []) := by
  intro lines
  have hlines : lines = d.lines.map fun l => l.text.toList := splitOn_text h
  refine ⟨?_, ?_, fun before line after hsplit => line_eq h hsplit,
    fun content hcontent hblank => eq_of_head?_eq_blank h hcontent hblank, ?_⟩
  · rw [hlines, ← map_content_lines, List.length_map, List.length_map]
  · have hend : d.lines = (⟨0, opening d.header⟩ :: d.body) ++ [⟨0, closing⟩] := rfl
    rw [hlines, hend, List.map_append, List.map_singleton, List.getLast?_concat]
    rfl
  · intro before after hsplit
    have hblank : Inline [' '] := by decide
    have hbody := (Selection.indented_lines 1 d.rootSelection fun name hname =>
      inline_names h name (List.mem_cons_of_mem _ (List.mem_append_left _ hname))).2
    have hnewline : Balanced ['\n'] := Unbraced.balanced (by decide)
    rw [toList_text] at hsplit
    rw [headerText_eq]
    exact Balanced.openBraces_of_head ((inline_header h).append hblank).unbraced
      (hbody.append hnewline) hsplit

/-- A page with a set in it that is written as the name of the type. -/
theorem text_layout_pageOfPosts :
    let contents := ["query ListPosts($id: ID!, $limit: Int) \x7b",
      "listPosts(id: $id, limit: $limit) \x7b", "items \x7b", "id", "author \x7b", "__typename",
      "\x7d", "\x7d", "nextToken", "\x7d", "\x7d"]
    let lines := ["query ListPosts($id: ID!, $limit: Int) \x7b",
      "  listPosts(id: $id, limit: $limit) \x7b", "    items \x7b", "      id",
      "      author \x7b", "        __typename", "      \x7d", "    \x7d", "    nextToken", "  \x7d",
      "\x7d"]
    pageOfPosts.Plain ∧ pageOfPosts.contents = contents ∧
      pageOfPosts.text.toList.splitOn '\n' = lines.map String.toList ∧
      (∀ content ∈ contents, content.toList.head? ≠ some ' ') ∧
      ∀ before after, pageOfPosts.text.toList = before ++ after →
        0 ≤ openBraces before ∧ (openBraces before = 0 ↔
          before <+: "query ListPosts($id: ID!, $limit: Int) ".toList ∨ after = []) := by
  have hplain : pageOfPosts.Plain := by
    refine ⟨by decide, by decide, by decide, ?_⟩
    rintro members ⟨⟩
    decide
  have hnames : ¬pageOfPosts.HasEmptyName := by
    rintro (⟨hname, _⟩ | ⟨members, ⟨⟩, hmem⟩)
    · exact absurd hname (by decide)
    · exact absurd hmem (by decide)
  intro contents lines
  have hcontents : pageOfPosts.contents = contents := by decide
  have hlines : pageOfPosts.text.toList.splitOn '\n' = lines.map String.toList := by
    rw [splitOn_text hplain]
    decide
  obtain ⟨_, _, _, hblank, hbraces⟩ := text_layout hplain
  refine ⟨hplain, hcontents, hlines, fun content hcontent hhead => ?_, hbraces⟩
  exact hnames (hblank content (hcontents ▸ hcontent) hhead).2

end Document

end DataApi
