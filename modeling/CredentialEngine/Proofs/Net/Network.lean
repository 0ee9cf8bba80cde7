import CredentialEngine.Proofs.Net.Address

/-!
# The texts of networks

A network is an address, a slash and the digits of a prefix length that is no longer than the
address. What is taken for one may have blanks around it and a plus before the length; it is one
exactly if it has neither.
-/
namespace CredentialEngine.Net

open Text

/-- An address, a slash and a prefix length in digits, with a sign before it. -/
inductive IsPrefixed (sign cs : List Char) : Prop
  | mk (address length : List Char) (bits : Nat) (haddress : IsAddress bits address)
      (hlength : length ≠ []) (hdigits : ∀ c ∈ length, c.isDigit = true)
      (hfits : digitsVal 0 length ≤ bits) (hcs : cs = address ++ '/' :: (sign ++ length))

/-- The text is a network as it stands there. -/
def IsNetworkText (s : String) : Prop :=
  IsPrefixed [] s.toList

/-- A network with blanks around it and perhaps a plus before the prefix length. -/
inductive IsLooseNetwork (s : String) : Prop
  | mk (before core after sign : List Char) (hbefore : ∀ c ∈ before, isBlank c = true)
      (hafter : ∀ c ∈ after, isBlank c = true) (hsign : sign = [] ∨ sign = ['+'])
      (hcore : IsPrefixed sign core) (hs : s.toList = before ++ core ++ after)

/-! ## Characters -/

/-- No blank, slash or plus. -/
def IsAddressChar (c : Char) : Prop :=
  isBlank c = false ∧ c ≠ '/' ∧ c ≠ '+'

theorem isAddressChar_of_isHex {c : Char} (h : isHex c = true) : IsAddressChar c := by
  have hrange : 48 ≤ c.toNat ∧ c.toNat ≤ 57 ∨ 97 ≤ c.toNat ∧ c.toNat ≤ 102 ∨
      65 ≤ c.toNat ∧ c.toNat ≤ 70 := by
    rw [isHex, Json.hexVal?] at h
    split at h
    · exact .inl (toNat_of_isDigit ‹_›)
    split at h
    · exact .inr (.inl ‹_›)
    split at h
    · exact .inr (.inr ‹_›)
    · contradiction
  refine ⟨?_, ?_, ?_⟩
  · simp only [isBlank, Bool.or_eq_false_iff, Bool.and_eq_false_iff, decide_eq_false_iff_not,
      beq_eq_false_iff_ne]
    omega
  all_goals
    rintro rfl
    exact absurd hrange (by decide)

theorem isAddressChar_of_isDigit {c : Char} (h : c.isDigit = true) : IsAddressChar c :=
  isAddressChar_of_isHex (isHex_of_isDigit h)

theorem IsIpv4.isAddressChar {cs : List Char} (h : IsIpv4 cs) : ∀ c ∈ cs, IsAddressChar c := by
  obtain ⟨a, b, c, d, -, rfl⟩ := h
  have hdigits : ∀ {n : Nat}, ∀ e ∈ Nat.toDigits 10 n, IsAddressChar e := fun e he =>
    isAddressChar_of_isDigit (isDigit_of_mem_toDigits he)
  have hpoint : IsAddressChar '.' := ⟨rfl, by decide, by decide⟩
  intro e he
  simp only [List.mem_append, List.mem_cons] at he
  rcases he with he | rfl | he | rfl | he | rfl | he
  all_goals first
    | exact hdigits e he
    | exact hpoint

theorem Groups.isAddressChar {mixed : Bool} {n : Nat} {cs : List Char} (h : Groups mixed n cs) :
    ∀ c ∈ cs, IsAddressChar c := by
  induction h with
  | single hg => exact fun c hc => isAddressChar_of_isHex (hg.hex c hc)
  | ipv4 _ ht => exact ht.isAddressChar
  | cons hg _ ih =>
    intro c hc
    rcases List.mem_append.mp hc with hc | hc
    · exact isAddressChar_of_isHex (hg.hex c hc)
    rcases List.mem_cons.mp hc with rfl | hc
    · exact ⟨rfl, by decide, by decide⟩
    · exact ih c hc

theorem Side.isAddressChar {mixed : Bool} {n : Nat} {cs : List Char} (h : Side mixed n cs) :
    ∀ c ∈ cs, IsAddressChar c := by
  rcases h with ⟨-, rfl⟩ | h
  · nofun
  · exact h.isAddressChar

theorem IsAddress.isAddressChar {bits : Nat} {cs : List Char} (h : IsAddress bits cs) :
    ∀ c ∈ cs, IsAddressChar c := by
  rcases h with h | h
  · exact h.isAddressChar
  · rcases h with h | ⟨front, back, m, n, hfront, hback, -, rfl⟩
    · exact h.isAddressChar
    · intro c hc
      simp only [List.mem_append, List.mem_cons] at hc
      rcases hc with hc | rfl | rfl | hc
      · exact hfront.isAddressChar c hc
      · exact ⟨rfl, by decide, by decide⟩
      · exact ⟨rfl, by decide, by decide⟩
      · exact hback.isAddressChar c hc

theorem IsPrefixed.unblank {sign cs : List Char} (h : IsPrefixed sign cs)
    (hsign : sign = [] ∨ sign = ['+']) : ∀ c ∈ cs, isBlank c = false := by
  obtain ⟨address, length, bits, haddress, -, hdigits, -, rfl⟩ := h
  have hplus : ∀ c ∈ sign, isBlank c = false := by
    rcases hsign with rfl | rfl
    · exact List.forall_mem_nil _
    · exact List.forall_mem_singleton.mpr rfl
  intro c hc
  simp only [List.mem_append, List.mem_cons] at hc
  rcases hc with hc | rfl | hc | hc
  · exact (haddress.isAddressChar c hc).1
  · rfl
  · exact hplus c hc
  · exact isBlank_of_isDigit (hdigits c hc)

theorem IsNetworkText.chars {s : String} (h : IsNetworkText s) :
    ∀ c ∈ s.toList, isBlank c = false ∧ c ≠ '+' := by
  have hunblank := IsPrefixed.unblank h (.inl rfl)
  obtain ⟨address, length, bits, haddress, -, hdigits, -, hs⟩ := h
  refine fun c hc => ⟨hunblank c hc, ?_⟩
  rw [hs] at hc
  simp only [List.nil_append, List.mem_append, List.mem_cons] at hc
  rcases hc with hc | rfl | hc
  · exact (haddress.isAddressChar c hc).2.2
  · decide
  · exact (isAddressChar_of_isDigit (hdigits c hc)).2.2

/-! ## Networks -/

theorem isNetwork_iff {s : String} : isNetwork s = true ↔ IsLooseNetwork s := by
  constructor
  · intro h
    obtain ⟨before, after, hbefore, hafter, hs⟩ := exists_blanks s.toList
    rw [isNetwork] at h
    have hsplit := List.takeWhile_append_dropWhile (p := (· ≠ '/')) (l := trimChars s.toList)
    split at h
    · contradiction
    rename_i c length hslash
    split at h
    · rename_i bits n hbits hn
      obtain rfl : c = '/' := by
        have hc : decide (c ≠ '/') = false :=
          of_mem_head?_dropWhile (show c ∈ ((trimChars s.toList).dropWhile _).head? by
            rw [hslash]; rfl)
        simpa using hc
      obtain ⟨sign, digits, hsign, rfl, hne, hdigits, rfl⟩ := natOfSigned?_eq_some.mp hn
      refine ⟨before, _, after, sign, hbefore, hafter, hsign, ?_, hs⟩
      refine ⟨_, digits, bits, addressBits?_eq_some.mp hbits, hne, hdigits, of_decide_eq_true h, ?_⟩
      rw [← hslash, hsplit]
    · contradiction
  · rintro ⟨before, core, after, sign, hbefore, hafter, hsign, hcore, hs⟩
    have htrim : trimChars s.toList = core := by
      rw [hs]
      exact trimChars_padded hbefore hafter (hcore.unblank hsign)
    obtain ⟨address, length, bits, haddress, hne, hdigits, hfits, rfl⟩ := hcore
    have hnoslash : ∀ c ∈ address, decide (c ≠ '/') = true := fun c hc =>
      decide_eq_true (haddress.isAddressChar c hc).2.1
    have hslash : ∀ c ∈ ('/' :: (sign ++ length)).head?, decide (c ≠ '/') = false := by
      rintro c hc
      obtain rfl := Option.some.inj hc
      rfl
    have hlength := natOfSigned?_eq_some.mpr ⟨sign, length, hsign, rfl, hne, hdigits, rfl⟩
    simp only [isNetwork, htrim, dropWhile_run hnoslash hslash, takeWhile_run hnoslash hslash,
      addressBits?_eq_some.mpr haddress, hlength, decide_eq_true_eq]
    exact hfits

/-- What is taken for a network is one as it stands there exactly if no blank and no plus is in
it. -/
theorem IsLooseNetwork.isNetworkText_iff {s : String} (h : IsLooseNetwork s) :
    IsNetworkText s ↔ ∀ c ∈ s.toList, isBlank c = false ∧ c ≠ '+' := by
  refine ⟨IsNetworkText.chars, fun hchars => ?_⟩
  obtain ⟨before, core, after, sign, hbefore, hafter, hsign, hcore, hs⟩ := h
  obtain rfl := eq_nil_of_blank hbefore fun c hc => (hchars c (by simp [hs, hc])).1
  obtain rfl := eq_nil_of_blank hafter fun c hc => (hchars c (by simp [hs, hc])).1
  rw [List.nil_append, List.append_nil] at hs
  rw [IsNetworkText, hs]
  rcases hsign with rfl | rfl
  · exact hcore
  · obtain ⟨address, length, -, -, -, -, -, rfl⟩ := hcore
    exact absurd rfl (hchars '+' (by simp [hs])).2

end CredentialEngine.Net
