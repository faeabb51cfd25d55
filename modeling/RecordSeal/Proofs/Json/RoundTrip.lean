import RecordSeal.Proofs.Json.Number
import RecordSeal.Proofs.Json.Text
import RecordSeal.Proofs.Table

set_option autoImplicit false

/-! # Values read back

`Value.IsJson` are the values that JSON texts describe, and `Value.IsRead` those that the reader can
give, in which there may be lone surrogates. Such a value is read back from its text, spaced or
compact, as long as nothing stands in the way of writing it (`readValue_print`). -/

namespace RecordSeal

open Text (Point points Unpaired)

/-- Values that JSON texts describe: no byte strings, foreign objects or lone surrogates are in
them, and in every object each name is a text that occurs once. -/
inductive Value.IsJson : Value → Prop where
  | null : IsJson .null
  | bool (b : Bool) : IsJson (.bool b)
  | int (n : Int) : IsJson (.int n)
  | float (x : Binary64) : IsJson (.float x)
  | text (s : String) : IsJson (.text s)
  | list {items : List Value} (all : ∀ v ∈ items, IsJson v) : IsJson (.list items)
  | object {fields : List (Name × Value)} (distinct : Assoc.Distinct fields)
      (texts : ∀ e ∈ fields, ∃ s, e.1 = .text s) (all : ∀ e ∈ fields, IsJson e.2) :
      IsJson (.object fields)

/-- Names that the reader can give: texts in which no two surrogates make a pair. -/
def Name.IsRead (n : Name) : Prop := ∃ ps, Unpaired ps ∧ n = .ofPoints ps

/-- Values that the reader can give: no byte strings or foreign objects are in them, no two
surrogates in a text make a pair, and in every object each name is a text that occurs once. -/
inductive Value.IsRead : Value → Prop where
  | null : IsRead .null
  | bool (b : Bool) : IsRead (.bool b)
  | int (n : Int) : IsRead (.int n)
  | float (x : Binary64) : IsRead (.float x)
  | text {ps : List Point} (unpaired : Unpaired ps) : IsRead (.ofPoints ps)
  | list {items : List Value} (all : ∀ v ∈ items, IsRead v) : IsRead (.list items)
  | object {fields : List (Name × Value)} (distinct : Assoc.Distinct fields)
      (names : ∀ e ∈ fields, e.1.IsRead) (all : ∀ e ∈ fields, IsRead e.2) :
      IsRead (.object fields)

@[simp] theorem Json.ofPoints_points (s : String) : Name.ofPoints (points s.toList) = .text s := by
  simp [Name.ofPoints]

theorem Name.isRead_text (s : String) : (Name.text s).IsRead :=
  ⟨points s.toList, Text.unpaired_points _, (Json.ofPoints_points s).symm⟩

theorem Value.IsJson.isRead {v : Value} (h : v.IsJson) : v.IsRead := by
  induction h with
  | null => exact .null
  | bool b => exact .bool b
  | int n => exact .int n
  | float x => exact .float x
  | text s =>
    have form : Value.ofPoints (points s.toList) = .text s := by simp [Value.ofPoints]
    rw [← form]
    exact .text (Text.unpaired_points _)
  | list all ih => exact .list ih
  | object distinct texts all ih =>
    refine .object distinct ?_ ih
    intro e he
    obtain ⟨s, text⟩ := texts e he
    rw [text]
    exact Name.isRead_text s

theorem Text.points_of_chars? {ps : List Point} {cs : List Char} (h : chars? ps = some cs) :
    points cs = ps := by
  induction ps generalizing cs with
  | nil =>
    cases h
    rfl
  | cons p ps ih =>
    rw [chars?, List.mapM_cons] at h
    cases p with
    | lone offset => cases h
    | char c =>
      cases others : chars? ps with
      | none =>
        rw [← chars?, others] at h
        cases h
      | some ds =>
        rw [← chars?, others] at h
        cases h
        exact congrArg (Point.char c :: ·) (ih others)

namespace Json

/-! ## Where a value begins -/

/-- Characters that no value begins with. -/
def outsiders : List Char := [']', '\x7d', ' ', '\t', '\n', '\r', '\uFEFF']

/-- Characters that neither a literal nor a number begins with. -/
def delimiters : List Char := '"' :: '[' :: '\x7b' :: outsiders

theorem readAtom_delimiter {c : Char} (h : c ∈ delimiters) (lim : Limits) (ps : List Point) :
    ∃ stop, readAtom lim (.char c :: ps) = .error stop := by
  simp only [delimiters, outsiders, List.mem_cons, List.not_mem_nil, or_false] at h
  rcases h with rfl | rfl | rfl | rfl | rfl | rfl | rfl | rfl | rfl | rfl <;> exact ⟨_, rfl⟩

theorem head_of_readAtom {lim : Limits} {text : List Char} {r : Value × List Point}
    (h : readAtom lim (points text ++ []) = .ok r) :
    ∃ c cs, text = c :: cs ∧ c ∉ delimiters := by
  cases text with
  | nil => cases h
  | cons c cs =>
    refine ⟨c, cs, rfl, ?_⟩
    intro hc
    obtain ⟨stop, refused⟩ := readAtom_delimiter hc lim (points cs ++ [])
    rw [show points (c :: cs) ++ [] = .char c :: (points cs ++ []) from rfl, refused] at h
    cases h

theorem skipBlanks_cons {c : Char} (hc : c ∉ outsiders) (ps : List Point) :
    skipBlanks (.char c :: ps) = .char c :: ps := by
  simp only [outsiders, List.mem_cons, List.not_mem_nil, or_false, not_or] at hc
  simp [skipBlanks, hc]

theorem skipBlanks_spaces (n : Nat) (ps : List Point) :
    skipBlanks (points (List.replicate n ' ') ++ ps) = skipBlanks ps := by
  induction n with
  | zero => rfl
  | succ n ih => exact ih

theorem readValue_atom {c : Char} (hc : c ∉ delimiters) (fuel : Nat) (lim : Limits)
    (ps : List Point) :
    readValue (fuel + 1) lim (.char c :: ps) = readAtom lim (.char c :: ps) := by
  simp only [delimiters, outsiders, List.mem_cons, List.not_mem_nil, or_false, not_or] at hc
  rw [readValue]
  all_goals simp [hc]

theorem print_ofPoints (sep : Separators) (ps : List Point) :
    print sep (.ofPoints ps) = printText ps := by
  rw [Value.ofPoints]
  cases found : Text.chars? ps with
  | none => rfl
  | some cs =>
    show printText (points (String.ofList cs).toList) = _
    rw [String.toList_ofList, Text.points_of_chars? found]

/-- What a value is written as begins with none of the outsiders. -/
theorem print_head (sep : Separators) {v : Value} (h : v.IsRead) :
    ∃ c cs, print sep v = c :: cs ∧ c ∉ outsiders := by
  have atom {text : List Char} {lim : Limits} {r : Value × List Point}
      (read : readAtom lim (points text ++ []) = .ok r) :
      ∃ c cs, text = c :: cs ∧ c ∉ outsiders := by
    obtain ⟨c, cs, form, hc⟩ := head_of_readAtom read
    exact ⟨c, cs, form, fun ho => hc (by simp [delimiters, ho])⟩
  have ends : Stops [] := by simp [Stops]
  cases h with
  | null => exact ⟨'n', _, rfl, by decide⟩
  | bool b => cases b <;> exact ⟨_, _, rfl, by decide⟩
  | int n =>
    let lim : Limits := ⟨(Decimal.ofNat n.natAbs).length, 0⟩
    have fits : numberObstacle? lim.digits n = none := by simp [numberObstacle?, lim]
    exact atom (readAtom_int fits ends)
  | float x => exact atom (show readAtom (.loose 0) _ = _ from readAtom_float x ends)
  | text unpaired => exact ⟨'"', _, print_ofPoints sep _, by decide⟩
  | list all => exact ⟨'[', _, rfl, by decide⟩
  | object distinct names all => exact ⟨'\x7b', _, rfl, by decide⟩

/-! ## Steps of the reader -/

/-- The value is read back from its text whatever ends it, given enough fuel. -/
def ReadsBack (sep : Separators) (v : Value) : Prop :=
  ∀ (fuel digits depth : Nat) (rest : List Point), obstacle? digits depth v = none →
    2 * (print sep v).length ≤ fuel → Stops rest →
      readValue fuel ⟨digits, depth⟩ (points (print sep v) ++ rest) = .ok (v, rest)

/-- Separators that are a comma and a colon, each before any number of blanks. -/
structure Separators.IsPlain (sep : Separators) : Prop where
  item : ∃ n, sep.item = ',' :: List.replicate n ' '
  name : ∃ n, sep.name = ':' :: List.replicate n ' '

theorem isPlain_spaced : spaced.IsPlain := ⟨⟨1, rfl⟩, ⟨1, rfl⟩⟩

theorem isPlain_compact : compact.IsPlain := ⟨⟨0, rfl⟩, ⟨0, rfl⟩⟩

theorem readItems_last {fuel : Nat} {lim : Limits} {ps rest : List Point} {v : Value}
    (h : readValue fuel lim ps = .ok (v, .char ']' :: rest)) :
    readItems (fuel + 1) lim ps = .ok ([v], rest) := by
  rw [readItems, h]
  rfl

theorem readItems_more {fuel : Nat} {lim : Limits} {ps rest rest' : List Point} {v : Value}
    {vs : List Value} (h : readValue fuel lim ps = .ok (v, .char ',' :: rest))
    (more : readItems fuel lim (skipBlanks rest) = .ok (vs, rest')) :
    readItems (fuel + 1) lim ps = .ok (v :: vs, rest') := by
  rw [readItems, h]
  show (readItems fuel lim (skipBlanks rest) >>= fun x => pure (v :: x.1, x.2)) = _
  rw [more]
  rfl

/-- The blanks of a separator are dropped, and nothing of what follows them. -/
theorem skipBlanks_text {text : List Char} (h : ∃ c cs, text = c :: cs ∧ c ∉ outsiders) (n : Nat)
    (ps : List Point) :
    skipBlanks (points (List.replicate n ' ') ++ (points text ++ ps)) = points text ++ ps := by
  obtain ⟨c, cs, rfl, hc⟩ := h
  rw [skipBlanks_spaces]
  exact skipBlanks_cons hc _

theorem printItems_cons (sep : Separators) (v w : Value) (items : List Value) :
    printItems sep (v :: w :: items) =
      print sep v ++ (sep.item ++ printItems sep (w :: items)) := by
  rw [printItems, List.append_assoc]
  simp

theorem printItems_head (sep : Separators) {v : Value} (h : v.IsRead) (items : List Value) :
    ∃ c cs, printItems sep (v :: items) = c :: cs ∧ c ∉ outsiders := by
  obtain ⟨c, cs, form, hc⟩ := print_head sep h
  cases items with
  | nil => exact ⟨c, cs, by rw [printItems, form], hc⟩
  | cons w items => exact ⟨c, _, by rw [printItems_cons, form, List.cons_append], hc⟩

/-- Items are read back up to the closing bracket. -/
theorem readItems_print {sep : Separators} (plain : sep.IsPlain) {items : List Value}
    (some : items ≠ []) (read : ∀ v ∈ items, v.IsRead) (back : ∀ v ∈ items, ReadsBack sep v)
    (fuel digits depth : Nat) (rest : List Point)
    (clear : itemObstacle? digits depth items = none)
    (enough : 2 * (printItems sep items).length + 1 ≤ fuel) :
    readItems fuel ⟨digits, depth⟩ (points (printItems sep items) ++ .char ']' :: rest) =
      .ok (items, rest) := by
  obtain ⟨n, comma⟩ := plain.item
  induction items generalizing fuel with
  | nil => exact absurd rfl some
  | cons v items ih =>
    obtain ⟨fuel, rfl⟩ : ∃ n, fuel = n + 1 := ⟨fuel - 1, by omega⟩
    rw [itemObstacle?, Option.or_eq_none_iff] at clear
    have first := back v (List.mem_cons_self ..) fuel digits depth
    cases items with
    | nil =>
      simp only [printItems] at enough ⊢
      exact readItems_last (first _ clear.1 (by omega) (by simp [Stops]))
    | cons w items =>
      have head := printItems_head sep (read w (by simp)) items
      rw [printItems_cons, comma] at enough ⊢
      simp only [List.length_append, List.length_cons] at enough
      have next := ih (List.cons_ne_nil _ _) (fun u hu => read u (List.mem_cons_of_mem _ hu))
        (fun u hu => back u (List.mem_cons_of_mem _ hu)) fuel clear.2 (by omega)
      have step := first (.char ',' :: (points (List.replicate n ' ') ++
        (points (printItems sep (w :: items)) ++ .char ']' :: rest))) clear.1 (by omega)
        (by simp [Stops])
      rw [← skipBlanks_text head n] at next
      simpa [points] using readItems_more step next

/-! ## Fields -/

theorem readFields_last {fuel : Nat} {lim : Limits} {ps k rest rest' : List Point} {v : Value}
    (name : readText ps = .ok (k, .char ':' :: rest'))
    (value : readValue fuel lim (skipBlanks rest') = .ok (v, .char '\x7d' :: rest)) :
    readFields (fuel + 1) lim (.char '"' :: ps) = .ok ([(Name.ofPoints k, v)], rest) := by
  rw [readFields, name]
  show (readValue fuel lim (skipBlanks rest') >>= _) = _
  rw [value]
  rfl

theorem readFields_more {fuel : Nat} {lim : Limits} {ps k rest rest' rest'' : List Point}
    {v : Value} {fs : List (Name × Value)} (name : readText ps = .ok (k, .char ':' :: rest'))
    (value : readValue fuel lim (skipBlanks rest') = .ok (v, .char ',' :: rest''))
    (more : readFields fuel lim (skipBlanks rest'') = .ok (fs, rest)) :
    readFields (fuel + 1) lim (.char '"' :: ps) = .ok ((Name.ofPoints k, v) :: fs, rest) := by
  rw [readFields, name]
  show (readValue fuel lim (skipBlanks rest') >>= _) = _
  rw [value]
  show (readFields fuel lim (skipBlanks rest'') >>= _) = _
  rw [more]
  rfl

theorem nameText_ofPoints (ps : List Point) : nameText (.ofPoints ps) = ps := by
  rw [Name.ofPoints]
  cases found : Text.chars? ps with
  | none => rfl
  | some cs =>
    show points (String.ofList cs).toList = ps
    rw [String.toList_ofList, Text.points_of_chars? found]

theorem printName_ofPoints (ps : List Point) (cs : List Char) (rest : List Point) :
    points (printName (.ofPoints ps) ++ cs) ++ rest =
      .char '"' :: (points (ps.flatMap textPoint) ++ .char '"' :: (points cs ++ rest)) := by
  rw [printName, nameText_ofPoints, printText]
  simp [points]

theorem printFields_single (sep : Separators) (k : Name) (v : Value) :
    printFields sep [(k, v)] = printName k ++ (sep.name ++ print sep v) := by
  rw [printFields, List.append_assoc]

theorem printFields_cons (sep : Separators) (k : Name) (v : Value) (e : Name × Value)
    (fields : List (Name × Value)) :
    printFields sep ((k, v) :: e :: fields) =
      printName k ++
        (sep.name ++ (print sep v ++ (sep.item ++ printFields sep (e :: fields)))) := by
  rw [printFields]
  · simp only [List.append_assoc]
  · simp

theorem printFields_head (sep : Separators) (e : Name × Value) (fields : List (Name × Value)) :
    ∃ c cs, printFields sep (e :: fields) = c :: cs ∧ c ∉ outsiders := by
  obtain ⟨k, v⟩ := e
  cases fields with
  | nil => exact ⟨'"', _, printFields_single sep k v, by decide⟩
  | cons f fields => exact ⟨'"', _, printFields_cons sep k v f fields, by decide⟩

/-- Fields are read back up to the closing brace. -/
theorem readFields_print {sep : Separators} (plain : sep.IsPlain) {fields : List (Name × Value)}
    (some : fields ≠ []) (names : ∀ e ∈ fields, e.1.IsRead)
    (read : ∀ e ∈ fields, e.2.IsRead) (back : ∀ e ∈ fields, ReadsBack sep e.2)
    (fuel digits depth : Nat) (rest : List Point)
    (clear : fieldObstacle? digits depth fields = none)
    (enough : 2 * (printFields sep fields).length + 1 ≤ fuel) :
    readFields fuel ⟨digits, depth⟩ (points (printFields sep fields) ++ .char '\x7d' :: rest) =
      .ok (fields, rest) := by
  obtain ⟨n, comma⟩ := plain.item
  obtain ⟨m, colon⟩ := plain.name
  induction fields generalizing fuel with
  | nil => exact absurd rfl some
  | cons e fields ih =>
    obtain ⟨fuel, rfl⟩ : ∃ n, fuel = n + 1 := ⟨fuel - 1, by omega⟩
    obtain ⟨k, v⟩ := e
    obtain ⟨ps, unpaired, rfl⟩ : k.IsRead := names (k, v) (List.mem_cons_self ..)
    simp only [fieldObstacle?, Option.or_eq_none_iff] at clear
    have first : ReadsBack sep v := back _ (List.mem_cons_self ..)
    have start := print_head sep (show v.IsRead from read _ (List.mem_cons_self ..))
    cases fields with
    | nil =>
      -- The last field is followed by the brace, which ends its value.
      rw [printFields_single, colon] at enough ⊢
      simp only [List.length_append, List.length_cons] at enough
      have value := first fuel digits depth (.char '\x7d' :: rest) clear.1.2 (by omega)
        (by simp [Stops])
      rw [← skipBlanks_text start m] at value
      rw [printName_ofPoints]
      refine readFields_last (readText_printText unpaired _) ?_
      simpa [points] using value
    | cons f fields =>
      have head := printFields_head sep f fields
      rw [printFields_cons, comma, colon] at enough ⊢
      simp only [List.length_append, List.length_cons] at enough
      have next := ih (List.cons_ne_nil _ _) (fun u hu => names u (List.mem_cons_of_mem _ hu))
        (fun u hu => read u (List.mem_cons_of_mem _ hu))
        (fun u hu => back u (List.mem_cons_of_mem _ hu)) fuel clear.2 (by omega)
      have value := first fuel digits depth (.char ',' :: (points (List.replicate n ' ') ++
        (points (printFields sep (f :: fields)) ++ .char '\x7d' :: rest))) clear.1.2 (by omega)
        (by simp [Stops])
      rw [← skipBlanks_text start m] at value
      rw [← skipBlanks_text head n] at next
      rw [printName_ofPoints]
      refine readFields_more (readText_printText unpaired _) ?_ next
      simpa [points] using value

/-! ## Values -/

theorem readValue_list {c : Char} (hc : c ∉ outsiders) {fuel digits depth : Nat}
    {ps rest : List Point} {vs : List Value}
    (items : readItems fuel ⟨digits, depth⟩ (.char c :: ps) = .ok (vs, rest)) :
    readValue (fuel + 1) ⟨digits, depth + 1⟩ (.char '[' :: .char c :: ps) =
      .ok (.list vs, rest) := by
  have first := skipBlanks_cons hc ps
  have open_ : c ≠ ']' := by
    rintro rfl
    exact hc (by simp [outsiders])
  simp [readValue, first, open_, items, Except.map]

theorem readValue_object {c : Char} (hc : c ∉ outsiders) {fuel digits depth : Nat}
    {ps rest : List Point} {fs : List (Name × Value)}
    (fields : readFields fuel ⟨digits, depth⟩ (.char c :: ps) = .ok (fs, rest)) :
    readValue (fuel + 1) ⟨digits, depth + 1⟩ (.char '\x7b' :: .char c :: ps) =
      .ok (.object (Assoc.ofList fs), rest) := by
  have first := skipBlanks_cons hc ps
  have open_ : c ≠ '\x7d' := by
    rintro rfl
    exact hc (by simp [outsiders])
  simp [readValue, first, open_, fields, Except.map]

section

variable {sep : Separators}

/-- What the reader of literals and numbers takes, the reader of values takes. -/
theorem readsBack_of_readAtom {v : Value}
    (read : ∀ digits depth rest, obstacle? digits depth v = none → Stops rest →
      readAtom ⟨digits, depth⟩ (points (print sep v) ++ rest) = .ok (v, rest)) :
    ReadsBack sep v := by
  intro fuel digits depth rest clear enough stops
  obtain ⟨c, cs, text, hc⟩ := head_of_readAtom (read digits depth [] clear (by simp [Stops]))
  have taken := read digits depth rest clear stops
  rw [text] at enough taken ⊢
  simp only [List.length_cons] at enough
  obtain ⟨fuel, rfl⟩ : ∃ n, fuel = n + 1 := ⟨fuel - 1, by omega⟩
  exact (readValue_atom hc fuel ⟨digits, depth⟩ _).trans taken

theorem readsBack_text {ps : List Point} (unpaired : Unpaired ps) :
    ReadsBack sep (.ofPoints ps) := by
  intro fuel digits depth rest _ enough _
  rw [print_ofPoints, printText] at enough ⊢
  simp only [List.cons_append, List.length_cons] at enough
  obtain ⟨fuel, rfl⟩ : ∃ n, fuel = n + 1 := ⟨fuel - 1, by omega⟩
  have split : points ('"' :: ps.flatMap textPoint ++ ['"']) ++ rest =
      .char '"' :: (points (ps.flatMap textPoint) ++ .char '"' :: rest) := by
    simp [points]
  rw [split, readValue, readText_printText unpaired]
  rfl

theorem readsBack_list (plain : sep.IsPlain) {items : List Value} (given : ∀ v ∈ items, v.IsRead)
    (back : ∀ v ∈ items, ReadsBack sep v) : ReadsBack sep (.list items) := by
  intro fuel digits depth rest clear enough _
  have form : print sep (.list items) = '[' :: printItems sep items ++ [']'] := by rw [print]
  rw [form] at enough ⊢
  simp only [List.cons_append, List.length_cons, List.length_append] at enough
  obtain ⟨fuel, rfl⟩ : ∃ n, fuel = n + 1 := ⟨fuel - 1, by omega⟩
  obtain _ | depth := depth
  · simp [obstacle?] at clear
  rw [obstacle?] at clear
  cases items with
  | nil => rfl
  | cons v items =>
    have read := readItems_print plain (List.cons_ne_nil v items) given back fuel digits depth rest
      clear (by omega)
    obtain ⟨c, cs, head, hc⟩ := printItems_head sep (given v (List.mem_cons_self ..)) items
    rw [head] at read ⊢
    simpa [points] using readValue_list hc read

theorem readsBack_object (plain : sep.IsPlain) {fields : List (Name × Value)}
    (distinct : Assoc.Distinct fields) (names : ∀ e ∈ fields, e.1.IsRead)
    (given : ∀ e ∈ fields, e.2.IsRead) (back : ∀ e ∈ fields, ReadsBack sep e.2) :
    ReadsBack sep (.object fields) := by
  intro fuel digits depth rest clear enough _
  have form : print sep (.object fields) = '\x7b' :: printFields sep fields ++ ['\x7d'] := by
    rw [print]
  rw [form] at enough ⊢
  simp only [List.cons_append, List.length_cons, List.length_append] at enough
  obtain ⟨fuel, rfl⟩ : ∃ n, fuel = n + 1 := ⟨fuel - 1, by omega⟩
  obtain _ | depth := depth
  · simp [obstacle?] at clear
  rw [obstacle?] at clear
  cases fields with
  | nil => rfl
  | cons e fields =>
    have read := readFields_print plain (List.cons_ne_nil e fields) names given back fuel digits
      depth rest clear (by omega)
    obtain ⟨c, cs, head, hc⟩ := printFields_head sep e fields
    rw [head] at read ⊢
    have value := readValue_object hc read
    -- The reader enters the fields one by one, which keeps them as they are.
    rw [Assoc.ofList_of_distinct distinct] at value
    simpa [points] using value

theorem readValue_print (plain : sep.IsPlain) {v : Value} (h : v.IsRead) : ReadsBack sep v := by
  induction h with
  | null =>
    refine readsBack_of_readAtom ?_
    intro digits depth rest _ _
    rfl
  | bool b =>
    refine readsBack_of_readAtom ?_
    intro digits depth rest _ _
    cases b <;> rfl
  | int n =>
    refine readsBack_of_readAtom ?_
    intro digits depth rest clear hr
    rw [obstacle?] at clear
    exact readAtom_int clear hr
  | float x =>
    refine readsBack_of_readAtom ?_
    intro digits depth rest _ hr
    exact readAtom_float x hr
  | text unpaired => exact readsBack_text unpaired
  | list all ih => exact readsBack_list plain all ih
  | object distinct names all ih => exact readsBack_object plain distinct names all ih

end

/-! ## Texts -/

/-- A value is read back from the whole of its text. -/
theorem readUnmarked_print {sep : Separators} (plain : sep.IsPlain) {v : Value} (h : v.IsRead)
    {lim : Limits} (clear : obstacle? lim.digits lim.depth v = none) :
    readUnmarked lim (points (print sep v)) = .ok v := by
  obtain ⟨c, cs, head, hc⟩ := print_head sep h
  have value := readValue_print plain h (2 * (points (print sep v)).length + 2) lim.digits
    lim.depth [] clear (by simp [points]) (by simp [Stops])
  have first : skipBlanks (points (print sep v)) = points (print sep v) := by
    rw [head]
    exact skipBlanks_cons hc _
  have unmarked : (points (print sep v)).head? ≠ some (.char '\uFEFF') := by
    rw [head]
    intro mark
    cases mark
    exact hc (by simp [outsiders])
  rw [List.append_nil] at value
  rw [readUnmarked, if_neg unmarked, read, readAll, first, value]
  rfl

/-- Different values are written as different texts. -/
theorem print_injective {sep : Separators} (plain : sep.IsPlain) {v w : Value} (hv : v.IsRead)
    (hw : w.IsRead) {lim : Limits} (clearV : obstacle? lim.digits lim.depth v = none)
    (clearW : obstacle? lim.digits lim.depth w = none) (h : print sep v = print sep w) : v = w := by
  have read := readUnmarked_print plain hv clearV
  rw [h, readUnmarked_print plain hw clearW] at read
  exact (Except.ok.inj read).symm

end Json

end RecordSeal
