import RecordSeal.Proofs.Seal.Attribute
import RecordSeal.Proofs.Json.Sorted
import RecordSeal.Seal.Sealer

set_option autoImplicit false

/-! # Descriptions read back

The description of a sealed record gives its salt again, and the text of a signature gives its
bytes (`readSeal_describe`). -/

namespace RecordSeal

namespace MaterialDescription

/-- A description of texts, with its fields in the order of their names. -/
theorem sorted_toValue (algorithm : Algorithm) (salt createdAt version : String) :
    (Value.object (toValue ⟨algorithm, .text salt, .text createdAt, .text version⟩)).sorted =
      .object [("algorithm", .text algorithm.name), ("created_at", .text createdAt),
        ("salt", .text salt), ("version", .text version)] := rfl

/-- The stored text of a description of texts describes it. -/
theorem readJson_text {lim : Json.Limits} (some : 0 < lim.depth) (algorithm : Algorithm)
    (salt createdAt version : String) :
    (Value.text (String.ofList
      (text ⟨algorithm, .text salt, .text createdAt, .text version⟩))).readJson lim =
      .ok (.object [("algorithm", .text algorithm.name), ("created_at", .text createdAt),
        ("salt", .text salt), ("version", .text version)]) := by
  have json : (Value.object [("algorithm", .text algorithm.name), ("created_at", .text createdAt),
      ("salt", .text salt), ("version", .text version)]).IsJson := by
    refine .object ?_ ?_ ?_
    · simp [Assoc.Distinct, Assoc.keys]
    · simp
    · simp only [List.forall_mem_cons, List.not_mem_nil, false_imp_iff, implies_true, and_true]
      exact ⟨.text _, .text _, .text _, .text _⟩
  have clear : Json.obstacle? lim.digits lim.depth (.object [
      ("algorithm", .text algorithm.name), ("created_at", .text createdAt),
      ("salt", .text salt), ("version", .text version)]) = none := by
    obtain ⟨depth, deep⟩ := Nat.exists_eq_succ_of_ne_zero some.ne'
    rw [deep]
    cases depth <;> rfl
  have read := Json.readUnmarked_print Json.isPlain_spaced json.isRead clear
  rw [text, sorted_toValue, Value.readJson, String.toList_ofList, read]
  rfl

end MaterialDescription

namespace Sealer

theorem readBase64_encodeText (bytes : List UInt8) :
    readBase64 (.text (Base64.encodeText bytes)) = .ok bytes := by
  rw [readBase64, Base64.encodeText, String.toList_ofList, Base64.decode_encode]
  rfl

/-- The seal of a record gives the salt and the code that it was made from. -/
theorem readSeal_describe (s : Sealer) (now : Timestamp) (salt code : List UInt8) :
    readSeal s.limits.describing (s.describe now salt) (.text (Base64.encodeText code)) =
      .ok (salt, code) := by
  have described := MaterialDescription.readJson_text
    (show 0 < s.limits.describing.depth from s.limits.describe_pos)
    s.algorithm (Base64.encodeText salt) now.text "1.0"
  have algorithm : Algorithm.ofValue (.text s.algorithm.name) = .ok s.algorithm := by
    cases s.algorithm
    rfl
  have read : MaterialDescription.ofValue (.object [
      ("algorithm", .text s.algorithm.name), ("created_at", .text now.text),
      ("salt", .text (Base64.encodeText salt)), ("version", .text "1.0")]) =
      .ok ⟨s.algorithm, .text (Base64.encodeText salt), .text now.text, .text "1.0"⟩ := by
    have entry : MaterialDescription.entry (.object [
        ("algorithm", .text s.algorithm.name), ("created_at", .text now.text),
        ("salt", .text (Base64.encodeText salt)), ("version", .text "1.0")]) "algorithm" =
        .ok (.text s.algorithm.name) := rfl
    simp only [MaterialDescription.ofValue, entry, algorithm, bind, Except.bind]
    rfl
  simp only [readSeal, describe, described, read, readBase64_encodeText, bind, Except.bind]
  rfl

end Sealer

end RecordSeal
