import RecordSeal.Proofs.Seal.Dependence

set_option autoImplicit false

/-! # What opening gives

A record that was opened has no signature left, its attributes are among those that were stored, and
what was decrypted of it can be encrypted and decrypted again. -/

namespace RecordSeal.Sealer

variable {s : Sealer} {p : FieldPolicies} {context : Context} {record out : Record}
  (opens : s.openRecord record p context = .ok out)

include opens

theorem contains_signature_of_openRecord (hp : p.Distinct) {signature : Name}
    (named : s.signatureName.toName = .ok signature) : out.contains signature = false := by
  obtain ⟨given, named', ⟨unsigned, -, rfl⟩ | ⟨_, description, _, key, -, -, -, -, decrypted⟩⟩ :=
    exists_of_openRecord_eq_ok opens
  · cases named.symm.trans named'
    rw [Assoc.contains, unsigned]
    rfl
  · cases named.symm.trans named'
    have gone : ((record.erase signature).erase description).get? signature = none := by
      rw [get?_erase_erase record (signature, description), if_pos (by simp)]
    rw [Assoc.contains, get?_decryptAttributes_eq_none hp decrypted gone]
    rfl

/-- A record that carries a signature loses the description too. -/
theorem contains_description_of_openRecord (hp : p.Distinct) {signature description : Name}
    (named : s.signatureName.toName = .ok signature)
    (named' : s.descriptionName.toName = .ok description)
    (signed : record.contains signature = true) : out.contains description = false := by
  obtain ⟨given, hs, ⟨unsigned, -, -⟩ | ⟨_, other, _, key, -, hd, -, -, decrypted⟩⟩ :=
    exists_of_openRecord_eq_ok opens
  · cases named.symm.trans hs
    rw [Assoc.contains, unsigned] at signed
    cases signed
  · cases named'.symm.trans hd
    have gone : ((record.erase given).erase description).get? description = none := by
      rw [get?_erase_erase record (given, description), if_pos (by simp)]
    rw [Assoc.contains, get?_decryptAttributes_eq_none hp decrypted gone]
    rfl

theorem keys_sublist_of_openRecord (hp : p.Distinct) : out.keys.Sublist record.keys := by
  obtain ⟨given, -, ⟨-, -, rfl⟩ | ⟨_, description, _, key, -, -, -, -, decrypted⟩⟩ :=
    exists_of_openRecord_eq_ok opens
  · exact List.Sublist.refl _
  · rw [← (decrypts_of_decryptAttributes hp decrypted).keys, Assoc.keys_erase, Assoc.keys_erase]
    exact List.filter_sublist.trans List.filter_sublist

theorem distinct_of_openRecord (hp : p.Distinct) (distinct : record.Distinct) : out.Distinct :=
  List.Pairwise.sublist (keys_sublist_of_openRecord opens hp) distinct

theorem ofAttributes_of_openRecord (hp : p.Distinct) (texts : Assoc.OfAttributes record) :
    Assoc.OfAttributes out := by
  intro k hk
  exact texts k ((keys_sublist_of_openRecord opens hp).mem hk)

/-- What was decrypted was read of a JSON text. -/
theorem isRead_of_openRecord (hp : p.Distinct) {n : Name} {v : Value}
    (encrypt : (p.flagsOf n).encrypt = true) (found : out.get? n = some v) : v.IsRead := by
  obtain ⟨given, -, ⟨-, unflagged, rfl⟩ | ⟨_, description, _, key, -, -, -, -, decrypted⟩⟩ :=
    exists_of_openRecord_eq_ok opens
  · -- Without a signature nothing is flagged.
    have none := FieldPolicies.isAny_flagsOf_of_any unflagged n
    rw [Flags.isAny, encrypt, Bool.true_or] at none
    cases none
  · have decrypts := decrypts_of_decryptAttributes hp decrypted
    obtain ⟨f, hf, same, flag⟩ := FieldPolicies.exists_of_encrypt encrypt
    have held : out.get? f.1 = some v := by rw [Assoc.get?_congr out same, found]
    have stored : ((record.erase given).erase description).contains f.1 = true := by
      rw [Assoc.contains_congr_keys decrypts.keys, Assoc.contains, held]
      rfl
    obtain ⟨w, hw⟩ := Option.isSome_iff_exists.1 stored
    exact isRead_of_decryptValue (decrypts.ciphers f hf flag v w held hw)

end RecordSeal.Sealer
