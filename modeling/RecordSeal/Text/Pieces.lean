set_option autoImplicit false

/-! # Texts in pieces

Keys of settings, names of modules and paths are names with a separator between them. Taking such
a text apart gives the names that it was put together from, as long as no name holds the
separator. -/

namespace RecordSeal.Text

/-- The pieces of a text between the occurrences of a separator; a text without it is one piece. -/
def pieces (separator : Char) (s : String) : List String :=
  (s.toList.splitOn separator).map String.ofList

/-- The text of pieces with a separator between them. -/
def joined (separator : Char) (names : List String) : String :=
  String.ofList ([separator].intercalate (names.map String.toList))

theorem pieces_joined {separator : Char} {names : List String} (hne : names ≠ [])
    (h : ∀ n ∈ names, separator ∉ n.toList) :
    pieces separator (joined separator names) = names := by
  have ofList_toList : String.ofList ∘ String.toList = id := funext fun s => by simp
  have free : ∀ cs ∈ names.map String.toList, separator ∉ cs := by
    intro cs hcs
    obtain ⟨n, hn, rfl⟩ := List.mem_map.1 hcs
    exact h n hn
  simp [joined, pieces, List.splitOn_intercalate separator free (by simpa using hne), ofList_toList]

end RecordSeal.Text
