import DataApi.Document.Text

/-!
# Tokens of a document's text

A text is cut into names and marks. A name goes on as long as it can, and blanks between two tokens
do not count, however many there are; a blank is only needed between two names. A text that holds a
character of no token, or a word that starts with a digit, has no tokens.

`Scans text ts` says that a piece of text stands for the tokens `ts` wherever it occurs, as long as
what follows does not go on with its last name. Pieces are put together with `Scans.append`.
-/

namespace DataApi

inductive Token where
  | name (text : String)
  | dollar
  | colon
  | comma
  | bang
  | openParen
  | closeParen
  | openBrace
  | closeBrace
  deriving DecidableEq

namespace Token

def startsName (c : Char) : Bool := c == '_' || c.isAlpha

def continuesName (c : Char) : Bool := c == '_' || c.isAlphanum

/-- Whether a word is a name: letters, digits and underscores, of which a digit is not the
first. -/
def isName : List Char → Bool
  | [] => false
  | c :: rest => startsName c && rest.all continuesName

def ofMark? : Char → Option Token
  | '$' => some .dollar
  | ':' => some .colon
  | ',' => some .comma
  | '!' => some .bang
  | '(' => some .openParen
  | ')' => some .closeParen
  | '\x7b' => some .openBrace
  | '\x7d' => some .closeBrace
  | _ => none

def endWord (word : List Char) (tokens : List Token) : Option (List Token) :=
  if word.isEmpty then some tokens
  else if isName word then some (.name (String.ofList word) :: tokens)
  else none

/-- The tokens of a text that comes behind the beginning `word` of a word. -/
def scan : List Char → List Char → Option (List Token)
  | word, [] => endWord word []
  | word, c :: rest =>
      if continuesName c then scan (word ++ [c]) rest
      else if c.isWhitespace then (scan [] rest).bind (endWord word)
      else
        match ofMark? c with
        | some mark => (scan [] rest).bind fun tokens => endWord word (mark :: tokens)
        | none => none

def tokens (text : List Char) : Option (List Token) := scan [] text

def Delimited (text : List Char) : Prop := ∀ c ∈ text.head?, continuesName c = false

/-- A piece of text stands for given tokens, whatever it is followed by. -/
def Scans (text : List Char) (ts : List Token) : Prop :=
  ∀ rest, Delimited rest → tokens (text ++ rest) = (tokens rest).map (ts ++ ·)

@[simp] theorem delimited_nil : Delimited [] := nofun

theorem delimited_cons {c : Char} (h : continuesName c = false) (rest : List Char) :
    Delimited (c :: rest) := by
  intro d hd
  obtain rfl : c = d := Option.some.inj hd
  exact h

@[simp] theorem tokens_nil : tokens [] = some [] := rfl

theorem endWord_nil : endWord [] = some := rfl

theorem continuesName_of_startsName {c : Char} (h : startsName c = true) :
    continuesName c = true := by
  unfold startsName at h
  unfold continuesName
  rw [Bool.or_eq_true] at h ⊢
  rcases h with h | h
  · exact .inl h
  · exact .inr (by rw [Char.isAlphanum, h, Bool.true_or])

theorem continuesName_of_isName {word : List Char} (h : isName word = true) :
    word.all continuesName = true := by
  cases word with
  | nil => rfl
  | cons c rest =>
      rw [isName, Bool.and_eq_true] at h
      rw [List.all_cons, continuesName_of_startsName h.1, h.2]
      rfl

theorem continuesName_of_isWhitespace {c : Char} (h : c.isWhitespace = true) :
    continuesName c = false := by
  have hc : c = ' ' ∨ c = '\t' ∨ c = '\r' ∨ c = '\n' := by
    simpa [Char.isWhitespace, or_assoc] using h
  rcases hc with rfl | rfl | rfl | rfl <;> decide

theorem continuesName_of_ofMark? {c : Char} {mark : Token} (h : ofMark? c = some mark) :
    continuesName c = false ∧ c.isWhitespace = false := by
  unfold ofMark? at h
  split at h
  case h_9 => nomatch h
  all_goals decide

theorem scan_blank {c : Char} (h : c.isWhitespace = true) (word rest : List Char) :
    scan word (c :: rest) = (tokens rest).bind (endWord word) := by
  rw [scan, if_neg (by simp [continuesName_of_isWhitespace h]), if_pos h]
  rfl

theorem scan_mark {c : Char} {mark : Token} (h : ofMark? c = some mark)
    (word rest : List Char) :
    scan word (c :: rest) = (tokens rest).bind fun ts => endWord word (mark :: ts) := by
  obtain ⟨hname, hblank⟩ := continuesName_of_ofMark? h
  rw [scan, if_neg (by simp [hname]), if_neg (by simp [hblank]), h]
  rfl

theorem tokens_blank {c : Char} (h : c.isWhitespace = true) (rest : List Char) :
    tokens (c :: rest) = tokens rest := by
  rw [tokens, scan_blank h, endWord_nil, Option.bind_fun_some]

theorem tokens_blanks (n : Nat) (rest : List Char) :
    tokens (List.replicate n ' ' ++ rest) = tokens rest := by
  induction n with
  | zero => rfl
  | succ n ih => rw [List.replicate_succ, List.cons_append, tokens_blank (by decide), ih]

theorem tokens_mark {c : Char} {mark : Token} (h : ofMark? c = some mark) (rest : List Char) :
    tokens (c :: rest) = (tokens rest).map (mark :: ·) := by
  rw [tokens, scan_mark h, endWord_nil, Option.map_eq_bind]
  rfl

theorem scan_append (rest : List Char) :
    ∀ (word : List Char) {more : List Char}, more.all continuesName = true →
      scan word (more ++ rest) = scan (word ++ more) rest
  | word, [], _ => by rw [List.nil_append, List.append_nil]
  | word, c :: more, h => by
      rw [List.all_cons, Bool.and_eq_true] at h
      have ih := scan_append rest (word ++ [c]) h.2
      rw [List.cons_append, scan, if_pos h.1, ih, List.append_assoc]
      rfl

theorem scan_of_delimited (word : List Char) {rest : List Char} (h : Delimited rest) :
    scan word rest = (tokens rest).bind (endWord word) := by
  cases rest with
  | nil => rfl
  | cons c rest =>
      have hc : ¬continuesName c = true := by simp [h c rfl]
      by_cases hblank : c.isWhitespace = true
      · rw [scan_blank hblank, tokens_blank hblank]
      · cases hmark : ofMark? c with
        | some mark =>
            rw [scan_mark hmark, tokens_mark hmark, Option.bind_map]
            rfl
        | none => simp [tokens, scan, hc, hblank, hmark]

theorem scans_name {word : List Char} (h : isName word = true) :
    Scans word [.name (String.ofList word)] := by
  intro rest hrest
  have hnonempty : word.isEmpty = false := by
    cases word with
    | nil => nomatch h
    | cons c more => rfl
  have hend (ts : List Token) :
      endWord word ts = some ([.name (String.ofList word)] ++ ts) := by
    rw [endWord, hnonempty, h]
    rfl
  rw [tokens, scan_append rest [] (continuesName_of_isName h), List.nil_append,
    scan_of_delimited word hrest, Option.map_eq_bind]
  exact congrArg _ (funext hend)

theorem scans_nil : Scans [] [] :=
  fun _ _ => Option.map_id'.symm

theorem Scans.append {a b : List Char} {ts us : List Token} (ha : Scans a ts)
    (hb : Scans b us) (h : ∀ rest, Delimited rest → Delimited (b ++ rest)) :
    Scans (a ++ b) (ts ++ us) := by
  intro rest hrest
  rw [List.append_assoc, ha _ (h rest hrest), hb rest hrest, Option.map_map]
  congr 1
  funext vs
  exact (List.append_assoc ts us vs).symm

theorem Scans.blank {text : List Char} {ts : List Token} (h : Scans text ts) {c : Char}
    (hc : c.isWhitespace = true) : Scans (c :: text) ts := by
  intro rest hrest
  rw [List.cons_append, tokens_blank hc, h rest hrest]

theorem Scans.mark {text : List Char} {ts : List Token} (h : Scans text ts) {c : Char}
    {mark : Token} (hc : ofMark? c = some mark) : Scans (c :: text) (mark :: ts) := by
  intro rest hrest
  rw [List.cons_append, tokens_mark hc, h rest hrest, Option.map_map]
  rfl

end Token

end DataApi
