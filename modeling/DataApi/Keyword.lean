/-!
# Enumerations written as keywords

A type with finitely many values, each of which is written as one keyword. `all` lists the values
in their order of declaration, which is also the order in which the keywords are named to someone
who wrote another word. Reading a keyword is exact: case matters and nothing is trimmed. As the
keywords are distinct and the list is complete, `ofKeyword?` reads back what `keyword` writes and
nothing else.
-/

namespace DataApi

/-- Types whose values are written as keywords. -/
class Keyword (α : Type) where
  /-- The values in order of declaration. -/
  all : List α
  keyword : α → String
  mem_all : ∀ a, a ∈ all
  /-- No word stands for two values. -/
  nodup_keywords : (all.map keyword).Nodup

namespace Keyword

variable {α : Type} [Keyword α]

def keywords (α : Type) [Keyword α] : List String := (all : List α).map keyword

/-- The value a word stands for. -/
def ofKeyword? (word : String) : Option α := (all : List α).find? fun a => keyword a == word

theorem keyword_of_ofKeyword? {word : String} {a : α} (h : ofKeyword? word = some a) :
    keyword a = word := by
  simpa using List.find?_some h

omit [Keyword α] in
/-- A map that keeps the members of a list distinct takes no two of them to one image. -/
theorem eq_of_nodup_map {β : Type} {f : α → β} {a b : α} :
    ∀ {l : List α}, (l.map f).Nodup → a ∈ l → b ∈ l → f a = f b → a = b
  | [], _, ha, _, _ => by simp at ha
  | c :: l, hn, ha, hb, hab => by
      rw [List.map_cons, List.nodup_cons] at hn
      rcases List.mem_cons.1 ha with hac | hal <;> rcases List.mem_cons.1 hb with hbc | hbl
      · rw [hac, hbc]
      · exact absurd (hac ▸ hab ▸ List.mem_map_of_mem hbl) hn.1
      · exact absurd (hbc ▸ hab ▸ List.mem_map_of_mem hal) hn.1
      · exact eq_of_nodup_map hn.2 hal hbl hab

theorem keyword_injective {a b : α} (h : keyword a = keyword b) : a = b :=
  eq_of_nodup_map nodup_keywords (mem_all a) (mem_all b) h

theorem ofKeyword?_keyword (a : α) : ofKeyword? (keyword a) = some a := by
  cases h : (ofKeyword? (keyword a) : Option α) with
  | none =>
      have := List.find?_eq_none.1 h a (mem_all a)
      simp at this
  | some b => rw [keyword_injective (keyword_of_ofKeyword? h)]

theorem ofKeyword?_eq_some_iff {word : String} {a : α} :
    ofKeyword? word = some a ↔ keyword a = word :=
  ⟨keyword_of_ofKeyword?, fun h => h ▸ ofKeyword?_keyword a⟩

theorem ofKeyword?_eq_none_iff {word : String} :
    (ofKeyword? word : Option α) = none ↔ word ∉ keywords α := by
  unfold ofKeyword? keywords
  simp

end Keyword

end DataApi
