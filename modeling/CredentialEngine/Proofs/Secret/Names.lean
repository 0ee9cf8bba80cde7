import CredentialEngine.Proofs.Text.Bytes
import CredentialEngine.Proofs.Text.Splitting
import CredentialEngine.Resource.User
import CredentialEngine.Secret.Record

/-!
# Families of secret names

Key secrets of accounts, key secrets from before there were labels, and bundles of users have names
that end differently, whatever the accounts and users are called. Within a family a name tells the
account and the role, even where an account is called like a secret of another one.
-/
namespace CredentialEngine.Secret

theorem getLast?_append (s : String) {e : String} {c : Char} (h : e.toList.getLast? = some c) :
    (s ++ e).toList.getLast? = some c := by
  rw [String.toList_append, List.getLast?_append, h, Option.some_or]

/-- The last character of a name of a key secret from before there were labels. -/
theorem getLast?_fixedName (account : String) (role : Role) :
    ∃ c ∈ ['t', 'n'], (fixedName account role).toList.getLast? = some c := by
  unfold fixedName
  split
  · exact ⟨'n', by decide, getLast?_append _ (by decide)⟩
  · exact ⟨'t', by decide, getLast?_append _ (by decide)⟩

theorem getLast?_bundleName (u : User) : u.bundleName.toList.getLast? = some 's' :=
  getLast?_append _ (by decide)

theorem digitChar_mem : ∀ d < 16, Nat.digitChar d ∈ "0123456789abcdef".toList := by decide

theorem mem_idMark {id : String} {c : Char} (h : c ∈ (idMark id).toList) :
    c ∈ "0123456789abcdef".toList := by
  rw [idMark, String.toList_ofList] at h
  obtain ⟨b, -, hc⟩ := List.mem_flatMap.mp (List.mem_of_mem_take h)
  have hb := b.toNat_lt
  rcases List.mem_cons.mp hc with rfl | hc
  · exact digitChar_mem _ (by omega)
  · obtain rfl := List.mem_singleton.mp hc
    exact digitChar_mem _ (by omega)

/-- The last character of a name of a key secret, which is of the mark of the id. -/
theorem getLast?_keyName (account id : String) (role : Role) :
    ∃ c ∈ '-' :: "0123456789abcdef".toList, (keyName account id role).toList.getLast? = some c := by
  unfold keyName
  rw [String.toList_append, List.getLast?_append]
  cases hm : (idMark id).toList.getLast? with
  | none =>
    refine ⟨'-', by decide, ?_⟩
    rw [Option.none_or]
    exact getLast?_append _ (by decide)
  | some c =>
    have hc := mem_idMark (List.mem_of_getLast? hm)
    exact ⟨c, List.mem_cons_of_mem _ hc, rfl⟩

theorem fixedName_ne_bundleName (account : String) (role : Role) (u : User) :
    fixedName account role ≠ u.bundleName := by
  intro he
  obtain ⟨c, hc, hl⟩ := getLast?_fixedName account role
  rw [he, getLast?_bundleName, Option.some.injEq] at hl
  subst hl
  exact absurd hc (by decide)

theorem keyName_ne_bundleName (account id : String) (role : Role) (u : User) :
    keyName account id role ≠ u.bundleName := by
  intro he
  obtain ⟨c, hc, hl⟩ := getLast?_keyName account id role
  rw [he, getLast?_bundleName, Option.some.injEq] at hl
  subst hl
  exact absurd hc (by decide)

theorem keyName_ne_fixedName (account id : String) (role : Role) (account' : String)
    (role' : Role) : keyName account id role ≠ fixedName account' role' := by
  intro he
  obtain ⟨c, hc, hl⟩ := getLast?_keyName account id role
  obtain ⟨c', hc', hl'⟩ := getLast?_fixedName account' role'
  rw [he, hl', Option.some.injEq] at hl
  subst hl
  have hapart : ∀ c ∈ ['t', 'n'], c ∉ '-' :: "0123456789abcdef".toList :=
    Text.forall_of_all (by decide)
  exact hapart c' hc' hc

/-! ## Accounts and roles -/

theorem length_ending (role : Role) :
    (if role = .accountSigning then "ac-sign" else "ac-root").toList.length = 7 := by
  split <;> rfl

/-- Both endings have the same length, so a fixed name tells where the account's name ends. -/
theorem fixedName_eq_iff {account account' : String} {role role' : Role} :
    fixedName account role = fixedName account' role' ↔
      account = account' ∧ (role = .accountSigning ↔ role' = .accountSigning) := by
  constructor
  · intro he
    have hl := congrArg String.toList he
    simp only [fixedName, String.toList_append] at hl
    have hlength := (length_ending role).trans (length_ending role').symm
    obtain ⟨hdashed, hending⟩ := List.append_inj' hl hlength
    refine ⟨String.toList_inj.mp (List.append_cancel_right hdashed), ?_⟩
    by_cases hr : role = .accountSigning <;> by_cases hr' : role' = .accountSigning <;>
      simp [hr, hr'] at hending ⊢
  · rintro ⟨rfl, hrole⟩
    simp only [fixedName, hrole]

theorem dash_notMem_idMark (id : String) : '-' ∉ (idMark id).toList :=
  fun h => absurd (mem_idMark h) (by decide)

/-- What stands before the last dash of a key secret's name, and what stands behind it. -/
theorem keyName_eq_iff_fixedName {account account' id id' : String} {role role' : Role} :
    keyName account id role = keyName account' id' role' ↔
      fixedName account role = fixedName account' role' ∧ idMark id = idMark id' := by
  have hchars : ∀ (account id : String) (role : Role), (keyName account id role).toList =
      (fixedName account role).toList ++ '-' :: (idMark id).toList := by
    intro account id role
    rw [keyName, String.toList_append, String.toList_append, List.append_assoc]
    rfl
  constructor
  · intro he
    have hl := congrArg String.toList he
    have hfixed := congrArg (Text.beforeLast '-') hl
    rw [hchars, hchars, Text.beforeLast_append (dash_notMem_idMark id),
      Text.beforeLast_append (dash_notMem_idMark id')] at hfixed
    rw [hchars, hchars, hfixed] at hl
    have hmark := (List.cons.inj (List.append_cancel_left hl)).2
    exact ⟨String.toList_inj.mp hfixed, String.toList_inj.mp hmark⟩
  · rintro ⟨hfixed, hmark⟩
    rw [keyName, keyName, hfixed, hmark]

theorem fixedName_root_ne_signing (account : String) :
    fixedName account .accountRoot ≠ fixedName account .accountSigning :=
  fun he => absurd (fixedName_eq_iff.mp he).2 (by decide)

theorem keyName_root_ne_signing (account id : String) :
    keyName account id .accountRoot ≠ keyName account id .accountSigning :=
  fun he => fixedName_root_ne_signing account (keyName_eq_iff_fixedName.mp he).1

/-- For the two roles of account keys, the endings of fixed names tell the role. -/
theorem eq_of_signing_iff {role role' : Role}
    (hrole : role = .accountRoot ∨ role = .accountSigning)
    (hrole' : role' = .accountRoot ∨ role' = .accountSigning) :
    (role = .accountSigning ↔ role' = .accountSigning) ↔ role = role' := by
  rcases hrole with rfl | rfl <;> rcases hrole' with rfl | rfl <;> decide

/-- Names of key secrets, with and without the mark of an id, are equal only for the same account
and role; no name with a mark is one without, and neither is the name of a bundle. -/
theorem secretNames_apart (account account' id id' : String) (u : User) {role role' : Role}
    (hrole : role = .accountRoot ∨ role = .accountSigning)
    (hrole' : role' = .accountRoot ∨ role' = .accountSigning) :
    (keyName account id role = keyName account' id' role' ↔
      account = account' ∧ role = role' ∧ idMark id = idMark id') ∧
    (fixedName account role = fixedName account' role' ↔ account = account' ∧ role = role') ∧
    keyName account id role ≠ fixedName account' role' ∧
    keyName account id role ≠ u.bundleName ∧
    fixedName account role ≠ u.bundleName := by
  have hsame := eq_of_signing_iff hrole hrole'
  refine ⟨?_, ?_, keyName_ne_fixedName account id role account' role',
    keyName_ne_bundleName account id role u, fixedName_ne_bundleName account role u⟩
  · rw [keyName_eq_iff_fixedName, fixedName_eq_iff, hsame, and_assoc]
  · rw [fixedName_eq_iff, hsame]

/-- A user with the name of an account's key secret. -/
def nestedUser : User :=
  { metadata := { name := "shop-ac-root" }, spec := { accountName := "shop" } }

/-- An account with the name of another one's key secret, and a user with the same name. -/
theorem secretNames_apart_nested :
    ((Role.accountSigning = .accountRoot ∨ Role.accountSigning = .accountSigning) ∧
      (Role.accountRoot = .accountRoot ∨ Role.accountRoot = .accountSigning)) ∧
    (keyName "shop-ac-root" "AA" .accountSigning = keyName "shop" "AB" .accountRoot ↔
      "shop-ac-root" = "shop" ∧ Role.accountSigning = .accountRoot ∧ idMark "AA" = idMark "AB") ∧
    (fixedName "shop-ac-root" .accountSigning = fixedName "shop" .accountRoot ↔
      "shop-ac-root" = "shop" ∧ Role.accountSigning = .accountRoot) ∧
    keyName "shop-ac-root" "AA" .accountSigning ≠ fixedName "shop" .accountRoot ∧
    keyName "shop-ac-root" "AA" .accountSigning ≠ nestedUser.bundleName ∧
    fixedName "shop-ac-root" .accountSigning ≠ nestedUser.bundleName :=
  ⟨⟨.inr rfl, .inl rfl⟩,
    secretNames_apart "shop-ac-root" "shop" "AA" "AB" nestedUser (.inr rfl) (.inl rfl)⟩

end CredentialEngine.Secret
