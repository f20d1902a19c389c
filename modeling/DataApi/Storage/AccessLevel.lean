import DataApi.Keyword

/-!
# Access levels

The access level of an object decides the top-level folder it is stored under. Objects that
everyone may write are kept together; the others are kept apart by the identity of their owner.
-/

namespace DataApi

/-- Who may read an object. -/
inductive AccessLevel where
  /-- Everyone reads and writes. -/
  | guest
  /-- Everyone reads, the owner writes. -/
  | ownerWrites
  /-- The owner reads and writes. -/
  | ownerOnly
  deriving DecidableEq

instance : Inhabited AccessLevel := ⟨.guest⟩

instance : Keyword AccessLevel where
  all := [.guest, .ownerWrites, .ownerOnly]
  keyword
    | .guest => "guest"
    | .ownerWrites => "protected"
    | .ownerOnly => "private"
  mem_all a := by cases a <;> decide
  nodup_keywords := by decide

namespace AccessLevel

def folder : AccessLevel → String
  | .guest => "public"
  | .ownerWrites => "protected"
  | .ownerOnly => "private"

/-- Whether the objects of a level are kept apart by identity. -/
def isIdentityScoped : AccessLevel → Bool
  | .guest => false
  | .ownerWrites | .ownerOnly => true

/-- What stands before the keys of a level: its folder, and in it the folder of an identity. -/
def keyPrefix (level : AccessLevel) : Option String → String
  | none => level.folder ++ "/"
  | some identity => level.folder ++ "/" ++ identity ++ "/"

theorem folder_injective {l k : AccessLevel} (h : l.folder = k.folder) : l = k := by
  cases l <;> cases k <;> simp_all [folder]

end AccessLevel

end DataApi
