import RecordSeal.Proofs.Json.RoundTrip
import RecordSeal.Proofs.Result

set_option autoImplicit false

/-! # What the reader gives is read again

The reader joins a leading and a trailing surrogate that stand next to each other, so in what it
gives there are no such two (`unpaired_of_textBody`), and every value that it gives is one that it
can read (`isRead_of_readUnmarked`). -/

namespace RecordSeal

namespace Json

open Text (Point points Unpaired)

/-! ## Texts -/

/-- Whether a text begins with the escape of a trailing surrogate. -/
def BeginsTrailing (ps : List Point) : Prop :=
  ∃ n rest, ps.take 2 = points ['\\', 'u'] ∧ unitAfter (ps.drop 2) = .ok (n, rest) ∧
    0xDC00 ≤ n ∧ n < 0xE000

/-- A text without lone surrogates of its own. -/
def IsWhole (ps : List Point) : Prop := ∀ p ∈ ps, ¬ p.IsLeading ∧ ¬ p.IsTrailing

theorem isWhole_points (cs : List Char) : IsWhole (points cs) := by
  intro p hp
  obtain ⟨c, -, rfl⟩ := List.mem_map.1 hp
  exact ⟨id, id⟩

theorem eq_drop_of_unitAfter {ps rest : List Point} {n : Nat} (h : unitAfter ps = .ok (n, rest)) :
    4 < ps.length ∧ rest = ps.drop 4 := by
  rw [unitAfter] at h
  split at h
  · cases h
  · next long =>
    split at h
    · cases h
      exact ⟨Nat.lt_of_not_le long, rfl⟩
    · cases h

theorem isTrailing_ofCode {n : Nat} (h : (Point.ofCode n).IsTrailing) :
    0xDC00 ≤ n ∧ n < 0xE000 := by
  rw [Point.ofCode] at h
  split at h
  · have : 0x400 ≤ n - 0xD800 := h
    omega
  · exact h.elim

theorem isLeading_ofCode {n : Nat} (h : (Point.ofCode n).IsLeading) : 0xD800 ≤ n ∧ n < 0xDC00 := by
  rw [Point.ofCode] at h
  split at h
  · have : n - 0xD800 < 0x400 := h
    omega
  · exact h.elim

/-- A leading surrogate is given only if no trailing one follows; a trailing one is given by its own
escape. -/
theorem numberEscape_spec {ps rest : List Point} {p : Point}
    (h : numberEscape ps = .ok (p, rest)) :
    rest <:+ ps ∧ (p.IsLeading → ¬ BeginsTrailing rest) ∧
      (p.IsTrailing → BeginsTrailing (.char '\\' :: .char 'u' :: ps)) := by
  rw [numberEscape] at h
  obtain ⟨⟨high, after⟩, first, h⟩ := exists_of_bind_eq_ok h
  obtain ⟨-, rfl⟩ := eq_drop_of_unitAfter first
  have alone (h : (p, rest) = (Point.ofCode high, ps.drop 4))
      (followed : 0xD800 ≤ high → high < 0xDC00 → ¬ BeginsTrailing (ps.drop 4)) :
      rest <:+ ps ∧ (p.IsLeading → ¬ BeginsTrailing rest) ∧
        (p.IsTrailing → BeginsTrailing (.char '\\' :: .char 'u' :: ps)) := by
    cases h
    refine ⟨List.drop_suffix _ _, ?_, ?_⟩
    · intro leading
      exact followed (isLeading_ofCode leading).1 (isLeading_ofCode leading).2
    · intro trailing
      exact ⟨high, _, rfl, first, isTrailing_ofCode trailing⟩
  dsimp only at h
  split at h
  · next pair =>
    obtain ⟨⟨low, after⟩, second, h⟩ := exists_of_bind_eq_ok h
    obtain ⟨-, rfl⟩ := eq_drop_of_unitAfter second
    dsimp only at h
    split at h
    · next joined =>
      -- The pair is a character.
      obtain ⟨rfl, rfl⟩ := Prod.mk.inj (Except.ok.inj h)
      have code : Point.ofCode (0x10000 + (high - 0xD800) * 0x400 + (low - 0xDC00)) =
          .char (Char.ofNat (0x10000 + (high - 0xD800) * 0x400 + (low - 0xDC00))) := by
        rw [Point.ofCode, dif_neg (by omega)]
      rw [code]
      refine ⟨?_, False.elim, False.elim⟩
      exact (List.drop_suffix _ _).trans ((List.drop_suffix _ _).trans (List.drop_suffix _ _))
    · next other =>
      refine alone (Except.ok.inj h).symm ?_
      rintro - - ⟨n, rest', -, again, trailing⟩
      rw [second] at again
      cases again
      exact other trailing
  · next single =>
    refine alone (Except.ok.inj h).symm ?_
    rintro low high ⟨n, rest', escape, unit, -⟩
    have long := (eq_drop_of_unitAfter unit).1
    rw [List.length_drop] at long
    exact single ⟨low, high, by omega, escape⟩

/-- What is read of a text holds no two surrogates that make a pair. It begins with a trailing one
only if the text begins with its escape. -/
theorem unpaired_of_textBody {start fuel : Nat} {ps out rest : List Point} (whole : IsWhole ps)
    (h : textBody start fuel ps = .ok (out, rest)) :
    Unpaired out ∧ (∀ q ∈ out.head?, q.IsTrailing → BeginsTrailing ps) ∧ rest <:+ ps := by
  fun_induction textBody start fuel ps generalizing out rest with
  | case1 => cases h
  | case2 => cases h
  | case3 fuel rest =>
    cases h
    exact ⟨trivial, by simp, List.suffix_cons _ _⟩
  | case4 => cases h
  | case5 fuel ps ih =>
    obtain ⟨⟨p, after⟩, escape, h⟩ := exists_of_bind_eq_ok h
    obtain ⟨⟨qs, end_⟩, body, h⟩ := exists_of_bind_eq_ok h
    cases h
    obtain ⟨suffix, leading, trailing⟩ := numberEscape_spec escape
    have kept : after <:+ .char '\\' :: .char 'u' :: ps :=
      suffix.trans ((List.suffix_cons _ _).trans (List.suffix_cons _ _))
    obtain ⟨unpaired, first, suffix'⟩ := ih after (fun q hq => whole q (kept.subset hq)) body
    refine ⟨⟨?_, unpaired⟩, ?_, suffix'.trans kept⟩
    · intro isLeading q hq isTrailing
      exact leading isLeading (first q hq isTrailing)
    · rintro q ⟨⟩
      exact trailing
  | case6 => cases h
  | case7 fuel e ps notUnit c short ih =>
    obtain ⟨⟨qs, end_⟩, body, h⟩ := exists_of_bind_eq_ok h
    cases h
    have kept : ps <:+ .char '\\' :: e :: ps := (List.suffix_cons _ _).trans (List.suffix_cons _ _)
    obtain ⟨unpaired, -, suffix⟩ := ih (fun q hq => whole q (kept.subset hq)) body
    refine ⟨⟨False.elim, unpaired⟩, ?_, suffix.trans kept⟩
    rintro q ⟨⟩
    exact False.elim
  | case8 => cases h
  | case9 fuel p ps _ _ _ _ _ ih =>
    obtain ⟨⟨qs, end_⟩, body, h⟩ := exists_of_bind_eq_ok h
    cases h
    have kept : ps <:+ p :: ps := List.suffix_cons _ _
    obtain ⟨unpaired, -, suffix⟩ := ih (fun q hq => whole q (kept.subset hq)) body
    obtain ⟨notLeading, notTrailing⟩ := whole p (List.mem_cons_self ..)
    refine ⟨⟨fun leading => absurd leading notLeading, unpaired⟩, ?_, suffix.trans kept⟩
    rintro q ⟨⟩ trailing
    exact absurd trailing notTrailing

/-! ## Literals and numbers -/

theorem suffix_spanDigits (ps : List Point) : (spanDigits ps).2 <:+ ps := by
  fun_induction spanDigits ps with
  | case1 c rest digit ds rest' split ih =>
    rw [split] at ih
    exact ih.trans (List.suffix_cons _ _)
  | case2 => exact List.suffix_rfl
  | case3 => exact List.suffix_rfl

theorem suffix_of_wholePart? {ps rest : List Point} {ds : List Char}
    (h : wholePart? ps = some (ds, rest)) : rest <:+ ps := by
  fun_cases wholePart? ps with
  | case1 text =>
    cases h
    exact List.suffix_cons _ _
  | case2 c text other digit =>
    rw [wholePart?, if_pos digit] at h
    · have digits := suffix_spanDigits (.char c :: text)
      rw [Option.some.inj h] at digits
      exact digits
    · exact other
  | case3 c text other digit =>
    rw [wholePart?, if_neg digit] at h
    · cases h
    · exact other
  | case4 _ _ =>
    rw [wholePart?] at h
    · cases h
    all_goals assumption

theorem suffix_fractionPart (ps : List Point) : (fractionPart ps).2 <:+ ps := by
  rw [fractionPart.eq_def]
  split
  · next rest =>
    dsimp only
    split
    · exact List.suffix_rfl
    · exact (suffix_spanDigits rest).trans (List.suffix_cons _ _)
  · exact List.suffix_rfl

theorem suffix_exponentPart (ps : List Point) : (exponentPart ps).2 <:+ ps := by
  have after (sign : Int) {rest : List Point} (kept : rest <:+ ps) :
      (if (spanDigits rest).1.isEmpty then ((none : Option Int), ps)
        else (some (sign * Decimal.toNat (spanDigits rest).1), (spanDigits rest).2)).2 <:+ ps := by
    split
    · exact List.suffix_rfl
    · exact (suffix_spanDigits rest).trans kept
  rw [exponentPart.eq_def]
  split
  · next e rest =>
    split
    · split
      · exact after 1 ((List.suffix_cons _ _).trans (List.suffix_cons _ _))
      · exact after (-1) ((List.suffix_cons _ _).trans (List.suffix_cons _ _))
      · exact after 1 (List.suffix_cons _ _)
    · exact List.suffix_rfl
  · exact List.suffix_rfl

/-- Whether a value is a literal or a number. -/
def IsAtom : Value → Prop
  | .null => True
  | .bool _ => True
  | .int _ => True
  | .float _ => True
  | _ => False

theorem IsAtom.isRead {v : Value} (h : IsAtom v) : v.IsRead := by
  cases v with
  | null => exact .null
  | bool b => exact .bool b
  | int n => exact .int n
  | float x => exact .float x
  | _ => exact h.elim

theorem isAtom_of_readNumber {lim : Limits} {ps rest : List Point} {v : Value}
    (h : readNumber lim ps = .ok (v, rest)) : IsAtom v ∧ rest <:+ ps := by
  have unsigned : (takeMinus ps).2 <:+ ps := by
    rw [takeMinus.eq_def]
    split
    · exact List.suffix_cons _ _
    · exact List.suffix_rfl
  rw [readNumber] at h
  dsimp only at h
  split at h
  · next whole after digits =>
    have kept : (exponentPart (fractionPart after).2).2 <:+ ps :=
      (suffix_exponentPart _).trans ((suffix_fractionPart _).trans
        ((suffix_of_wholePart? digits).trans unsigned))
    rw [numberAfter] at h
    dsimp only at h
    split at h
    · split at h
      · cases h
      · cases h
        exact ⟨trivial, kept⟩
    · cases h
      exact ⟨trivial, kept⟩
  · cases h

theorem isAtom_of_readAtom {lim : Limits} {ps rest : List Point} {v : Value}
    (h : readAtom lim ps = .ok (v, rest)) : IsAtom v ∧ rest <:+ ps := by
  rw [readAtom] at h
  split at h
  · next name w found =>
    cases h
    refine ⟨?_, List.drop_suffix _ _⟩
    have named := List.mem_of_find?_eq_some found
    simp only [names, List.mem_cons, Prod.mk.injEq, List.not_mem_nil, or_false] at named
    rcases named with ⟨-, rfl⟩ | ⟨-, rfl⟩ | ⟨-, rfl⟩ | ⟨-, rfl⟩ | ⟨-, rfl⟩ | ⟨-, rfl⟩ <;>
      exact trivial
  · exact isAtom_of_readNumber h

/-! ## Values -/

theorem suffix_skipBlanks (ps : List Point) : skipBlanks ps <:+ ps := List.dropWhile_suffix _

theorem IsWhole.suffix {ps qs : List Point} (h : IsWhole ps) (kept : qs <:+ ps) : IsWhole qs :=
  fun q hq => h q (kept.subset hq)

theorem isRead_of_readText {ps out rest : List Point} (whole : IsWhole ps)
    (h : readText ps = .ok (out, rest)) :
    (Value.ofPoints out).IsRead ∧ (Name.ofPoints out).IsRead ∧ rest <:+ ps := by
  obtain ⟨unpaired, -, kept⟩ := unpaired_of_textBody whole h
  exact ⟨.text unpaired, ⟨out, unpaired, rfl⟩, kept⟩

theorem isRead_object {fs : List (Name × Value)} (h : ∀ e ∈ fs, e.1.IsRead ∧ e.2.IsRead) :
    (Value.object (Assoc.ofList fs)).IsRead := by
  refine .object (Assoc.distinct_ofList fs) ?_ ?_
  · have names : ∀ k ∈ Assoc.keys (Assoc.ofList fs), k.IsRead := by
      refine Assoc.forall_keys_insertAll (by simp [Assoc.keys]) ?_
      intro k hk
      obtain ⟨e, he, rfl⟩ := List.mem_map.1 hk
      exact (h e he).1
    exact fun e he => names _ (List.mem_map_of_mem he)
  · exact Assoc.forall_insertAll (by simp) fun e he => (h e he).2

/-- Whether the readers give what can be given again, as far as their fuel goes. -/
structure GivesRead (fuel : Nat) : Prop where
  value : ∀ {lim ps v rest}, IsWhole ps → readValue fuel lim ps = .ok (v, rest) →
    v.IsRead ∧ rest <:+ ps
  items : ∀ {lim ps vs rest}, IsWhole ps → readItems fuel lim ps = .ok (vs, rest) →
    (∀ v ∈ vs, v.IsRead) ∧ rest <:+ ps
  fields : ∀ {lim ps fs rest}, IsWhole ps → readFields fuel lim ps = .ok (fs, rest) →
    (∀ e ∈ fs, e.1.IsRead ∧ e.2.IsRead) ∧ rest <:+ ps

section

variable {fuel : Nat} (given : GivesRead fuel) {lim : Limits} {ps rest : List Point}
  (whole : IsWhole ps)

include given whole

theorem GivesRead.value_succ {v : Value} (h : readValue (fuel + 1) lim ps = .ok (v, rest)) :
    v.IsRead ∧ rest <:+ ps := by
  rw [readValue.eq_def] at h
  split at h
  · cases h
  · next text _ =>
    obtain ⟨⟨t, after⟩, read, h⟩ := exists_of_map_eq_ok h
    cases h
    have kept : text <:+ Point.char '"' :: text := List.suffix_cons _ _
    obtain ⟨value, -, suffix⟩ := isRead_of_readText (whole.suffix kept) read
    exact ⟨value, suffix.trans kept⟩
  · cases h
  · next n digits depth text same =>
    cases same
    have kept : skipBlanks text <:+ Point.char '[' :: text :=
      (suffix_skipBlanks text).trans (List.suffix_cons _ _)
    split at h
    · next closed =>
      cases h
      rw [closed] at kept
      exact ⟨.list (by simp), (List.suffix_cons _ _).trans kept⟩
    · obtain ⟨⟨vs, after⟩, read, h⟩ := exists_of_map_eq_ok h
      cases h
      obtain ⟨all, suffix⟩ := given.items (whole.suffix kept) read
      exact ⟨.list all, suffix.trans kept⟩
  · cases h
  · next n digits depth text same =>
    cases same
    have kept : skipBlanks text <:+ Point.char '\x7b' :: text :=
      (suffix_skipBlanks text).trans (List.suffix_cons _ _)
    split at h
    · next closed =>
      cases h
      rw [closed] at kept
      exact ⟨@isRead_object [] (by simp), (List.suffix_cons _ _).trans kept⟩
    · obtain ⟨⟨fs, after⟩, read, h⟩ := exists_of_map_eq_ok h
      cases h
      obtain ⟨all, suffix⟩ := given.fields (whole.suffix kept) read
      exact ⟨isRead_object all, suffix.trans kept⟩
  · obtain ⟨atom, suffix⟩ := isAtom_of_readAtom h
    exact ⟨atom.isRead, suffix⟩

theorem GivesRead.items_succ {vs : List Value}
    (h : readItems (fuel + 1) lim ps = .ok (vs, rest)) :
    (∀ v ∈ vs, v.IsRead) ∧ rest <:+ ps := by
  rw [readItems] at h
  obtain ⟨⟨v, after⟩, first, h⟩ := exists_of_bind_eq_ok h
  obtain ⟨value, suffix⟩ := given.value whole first
  have kept : skipBlanks after <:+ ps := (suffix_skipBlanks after).trans suffix
  dsimp only at h
  split at h
  · next text closed =>
    cases h
    rw [closed] at kept
    exact ⟨by simpa using value, (List.suffix_cons _ _).trans kept⟩
  · next text comma =>
    obtain ⟨⟨ws, after'⟩, others, h⟩ := exists_of_bind_eq_ok h
    cases h
    rw [comma] at kept
    have kept' := (suffix_skipBlanks text).trans ((List.suffix_cons _ _).trans kept)
    obtain ⟨all, suffix'⟩ := given.items (whole.suffix kept') others
    exact ⟨List.forall_mem_cons.2 ⟨value, all⟩, suffix'.trans kept'⟩
  · cases h

theorem GivesRead.fields_succ {fs : List (Name × Value)}
    (h : readFields (fuel + 1) lim ps = .ok (fs, rest)) :
    (∀ e ∈ fs, e.1.IsRead ∧ e.2.IsRead) ∧ rest <:+ ps := by
  rw [readFields.eq_def] at h
  split at h
  · cases h
  · next n lim text same =>
    cases same
    have quote : text <:+ Point.char '"' :: text := List.suffix_cons _ _
    obtain ⟨⟨k, after⟩, named, h⟩ := exists_of_bind_eq_ok h
    obtain ⟨-, name, suffix⟩ := isRead_of_readText (whole.suffix quote) named
    have kept : skipBlanks after <:+ Point.char '"' :: text :=
      (suffix_skipBlanks after).trans (suffix.trans quote)
    dsimp only at h
    split at h
    · next text₁ colon =>
      rw [colon] at kept
      have kept₁ := (suffix_skipBlanks text₁).trans ((List.suffix_cons _ _).trans kept)
      obtain ⟨⟨v, after₁⟩, first, h⟩ := exists_of_bind_eq_ok h
      obtain ⟨value, suffix₁⟩ := given.value (whole.suffix kept₁) first
      have kept₂ := (suffix_skipBlanks after₁).trans (suffix₁.trans kept₁)
      dsimp only at h
      split at h
      · next text₂ closed =>
        cases h
        rw [closed] at kept₂
        exact ⟨by simpa using ⟨name, value⟩, (List.suffix_cons _ _).trans kept₂⟩
      · next text₂ comma =>
        obtain ⟨⟨es, after₂⟩, others, h⟩ := exists_of_bind_eq_ok h
        cases h
        rw [comma] at kept₂
        have kept₃ := (suffix_skipBlanks text₂).trans ((List.suffix_cons _ _).trans kept₂)
        obtain ⟨all, suffix₂⟩ := given.fields (whole.suffix kept₃) others
        exact ⟨List.forall_mem_cons.2 ⟨⟨name, value⟩, all⟩, suffix₂.trans kept₃⟩
      · cases h
    · cases h
  · cases h

end

/-- Whatever the fuel, the readers give what can be given again. -/
theorem givesRead (fuel : Nat) : GivesRead fuel := by
  induction fuel with
  | zero =>
    constructor
    · intro lim ps v rest _ h
      cases h
    · intro lim ps vs rest _ h
      cases h
    · intro lim ps fs rest _ h
      cases h
  | succ fuel ih =>
    constructor
    · exact fun whole h => ih.value_succ whole h
    · exact fun whole h => ih.items_succ whole h
    · exact fun whole h => ih.fields_succ whole h

theorem isRead_of_readUnmarked {lim : Limits} {cs : List Char} {v : Value}
    (h : readUnmarked lim (points cs) = .ok v) : v.IsRead := by
  rw [readUnmarked] at h
  split at h
  · cases h
  · rw [read, readAll] at h
    cases first : readValue (2 * (points cs).length + 2) lim (skipBlanks (points cs)) with
    | error why =>
      rw [first] at h
      cases h
    | ok r =>
      obtain ⟨w, rest⟩ := r
      have whole := (isWhole_points cs).suffix (suffix_skipBlanks _)
      have value := ((givesRead _).value whole first).1
      rw [first] at h
      simp only [bind, Except.bind] at h
      split at h
      · cases h
        exact value
      · cases h

/-- A text that begins with none of the delimiters describes a literal or a number. -/
theorem isAtom_of_readUnmarked {lim : Limits} {cs : List Char} {v : Value}
    (first : ∀ c ∈ cs.head?, c ∉ delimiters) (h : readUnmarked lim (points cs) = .ok v) :
    IsAtom v := by
  rw [readUnmarked] at h
  split at h
  · cases h
  rw [read, readAll] at h
  cases cs with
  | nil => cases h
  | cons c cs =>
    have plain : c ∉ delimiters := first c rfl
    have kept : skipBlanks (points (c :: cs)) = .char c :: points cs :=
      skipBlanks_cons (fun outside => plain (by simp [delimiters, outside])) (points cs)
    rw [kept, readValue_atom plain] at h
    cases atom : readAtom lim (.char c :: points cs) with
    | error why =>
      rw [atom] at h
      cases h
    | ok r =>
      obtain ⟨w, rest⟩ := r
      rw [atom] at h
      simp only [bind, Except.bind] at h
      split at h
      · cases h
        exact (isAtom_of_readAtom atom).1
      · cases h

end Json

end RecordSeal
