import CredentialEngine.Proofs.Dict
import CredentialEngine.Proofs.Key.Text
import CredentialEngine.Proofs.Keyring.Steps
import CredentialEngine.Proofs.Secret.Names

/-!
# Keys that a table holds on to

A table keeps the keys of an account while their two records are in place and no other record of the
namespace passes for one of them. Loading the account then answers these keys and changes nothing.
Steps that spare the two records, and bring in no other record of that id, leave the keys in place.
-/
namespace CredentialEngine.Keyring

open Secret CredentialEngine.Action

/-- The record of a key of an account. -/
structure IsKeyRecord (keys : AccountKeys) (role : Role) (r : Record) : Prop where
  hasRole : r.labels.get? Label.secretRole = some role.text
  hasId : r.labels.get? Label.accountId = some keys.accountId
  hasData : r.data = keyData (keys.ofRole role)

/-- The table keeps the keys of an account, and only their records carry the id or the root key. -/
structure Keeps (space account : String) (keys : AccountKeys) (t : Table) : Prop where
  stored : ∀ role ∈ keyRoles, ∃ r, t.find? (keyLocation space account keys role) = some r ∧
    IsKeyRecord keys role r
  carriers : ∀ r ∈ t.records, r.space = space →
    r.labels.get? Label.accountId = some keys.accountId →
      ∃ role ∈ keyRoles, r.location = keyLocation space account keys role
  holders : ∀ r ∈ t.records, r.space = space → HoldsKey r keys.accountId →
    r.location = keyLocation space account keys .accountRoot

variable {space account : String} {keys : AccountKeys} {t t' : Table} {s : Scope}

/-! ## Loading -/

theorem role?_of_label {r : Record} {role : Role}
    (h : r.labels.get? Label.secretRole = some role.text) : r.role? = some role := by
  rw [Record.role?, h, Option.bind_some]
  cases role <;> decide

/-- Among the records of the id, the one in place is the only one of its role. -/
theorem Keeps.filter_role (h : Keeps space account keys t) {role : Role} (hr : role ∈ keyRoles)
    {r : Record} (hf : t.find? (keyLocation space account keys role) = some r)
    (hk : IsKeyRecord keys role r) :
    ((labelled t space keys.accountId).filter fun r => r.role? = some role) = [r] := by
  obtain ⟨hm, hloc⟩ := Table.found hf
  refine List.perm_singleton.mp ((List.perm_ext_iff_of_nodup ?_ (List.nodup_singleton r)).mpr ?_)
  · exact (Table.nodup_selected _ _ _).filter _
  · intro r'
    rw [List.mem_singleton, List.mem_filter, decide_eq_true_eq, mem_labelled]
    constructor
    · rintro ⟨⟨hm', hspace, hid⟩, hrole⟩
      obtain ⟨role', hr', hloc'⟩ := h.carriers r' hm' hspace hid
      obtain ⟨r'', hf'', hk''⟩ := h.stored role' hr'
      obtain ⟨hm'', hloc''⟩ := Table.found hf''
      obtain rfl := Table.eq_of_location_eq hm' hm'' (hloc'.trans hloc''.symm)
      have he : role' = role := Option.some.inj ((role?_of_label hk''.hasRole).symm.trans hrole)
      subst he
      exact Table.eq_of_location_eq hm' hm (hloc'.trans hloc.symm)
    · rintro rfl
      exact ⟨⟨hm, congrArg Location.space hloc, hk.hasId⟩, role?_of_label hk.hasRole⟩

/-- The texts of the seeds give back the keys, and both are keys of accounts. -/
def AccountKeys.Sound (keys : AccountKeys) : Prop :=
  ∀ role ∈ keyRoles, keyOfSeedFor Key.accountLead ((keys.ofRole role).seedText?.getD "") =
    .ok (keys.ofRole role)

theorem value?_keyData (pair : Key.Pair) :
    (keyData pair).get? seedKey = some (pair.seedText?.getD "") := rfl

theorem accountKeyOf_of_data {role : Role} {r : Record} (hs : keys.Sound) (hr : role ∈ keyRoles)
    (hd : r.data = keyData (keys.ofRole role)) : accountKeyOf r = .ok (keys.ofRole role) := by
  rw [accountKeyOf, Record.value?, hd, value?_keyData]
  simp only [hs role hr]
  rfl

theorem accountKeyOf_record {role : Role} {r : Record} (hs : keys.Sound) (hr : role ∈ keyRoles)
    (hk : IsKeyRecord keys role r) : accountKeyOf r = .ok (keys.ofRole role) :=
  accountKeyOf_of_data hs hr hk.hasData

/-- The label finds both records, under whatever name the account is asked for. -/
theorem Keeps.splitRecords (h : Keeps space account keys t) (account' : String) :
    ∃ root signing, IsKeyRecord keys .accountRoot root ∧ IsKeyRecord keys .accountSigning signing ∧
      splitRecords account' (labelled t space keys.accountId) = .ok (some root, some signing) := by
  obtain ⟨root, hroot, hkroot⟩ := h.stored .accountRoot (by decide)
  obtain ⟨signing, hsigning, hksigning⟩ := h.stored .accountSigning (by decide)
  refine ⟨root, signing, hkroot, hksigning, ?_⟩
  simp only [Keyring.splitRecords, h.filter_role (by decide) hroot hkroot,
    h.filter_role (by decide) hsigning hksigning, List.length_singleton, List.head?_cons]
  rfl

/-- Loading answers the keys that are kept and leaves the table as it is. -/
theorem accountKeys_of_keeps (h : Keeps space account keys t) (hs : keys.Sound) :
    accountKeys space account (some keys.accountId) t = .ok keys t := by
  obtain ⟨root, signing, hroot, hsigning, hsplit⟩ := h.splitRecords account
  change EStateM.bind (Action.ofExcept (Keyring.splitRecords account
    (labelled t space keys.accountId))) _ t = _
  rw [hsplit]
  change EStateM.bind (Action.ofExcept (accountKeyOf root)) _ t = _
  rw [accountKeyOf_record hs (by decide) hroot]
  change EStateM.bind (Action.ofExcept (accountKeyOf signing)) _ t = _
  rw [accountKeyOf_record hs (by decide) hsigning]
  rfl

/-- The text of a 32-byte seed gives back the pair, whose public text starts with the letter of its
role. -/
theorem keyOfSeedFor_ofSeed (role : Key.Role) {seed : List UInt8} (hl : seed.length = 32)
    {lead : Char}
    (hlead : Encoding.Radix.base32.letter ((Encoding.bitsOf 8 role.byte.toNat).take 5) = lead) :
    keyOfSeedFor lead ((Key.Pair.ofSeed role seed).seedText?.getD "") =
      .ok (Key.Pair.ofSeed role seed) := by
  obtain ⟨text, htext, htrim, hread⟩ := Key.Pair.seedText?_ofSeed role hl
  have hstart := Key.Pair.startsWith_publicText (Key.Pair.ofSeed role seed)
  have hrole : (Key.Pair.ofSeed role seed).role = role := rfl
  rw [hrole, hlead] at hstart
  have hkey : keyOfSeed text = .ok (Key.Pair.ofSeed role seed) := by
    rw [keyOfSeed, htrim, hread]
  rw [htext, Option.getD_some, keyOfSeedFor, hkey]
  simp only [hstart, if_true]

/-! ## Steps that spare the keys -/

theorem Keeps.put {r : Record} (h : Keeps space account keys t)
    (hl : ∀ role ∈ keyRoles, r.location ≠ keyLocation space account keys role)
    (hid : r.space = space → r.labels.get? Label.accountId ≠ some keys.accountId)
    (hk : r.space = space → ¬ HoldsKey r keys.accountId) : Keeps space account keys (t.put r) where
  stored role hr := by
    rw [Table.find?_put, if_neg (hl role hr)]
    exact h.stored role hr
  carriers r' hm hs hid' := by
    rcases Table.mem_put.mp hm with rfl | ⟨hm, -⟩
    · exact absurd hid' (hid hs)
    · exact h.carriers r' hm hs hid'
  holders r' hm hs hk' := by
    rcases Table.mem_put.mp hm with rfl | ⟨hm, -⟩
    · exact absurd hk' (hk hs)
    · exact h.holders r' hm hs hk'

theorem Keeps.keep {test : Record → Bool} (h : Keeps space account keys t)
    (ht : ∀ r ∈ t.records, test r = false →
      ∀ role ∈ keyRoles, r.location ≠ keyLocation space account keys role) :
    Keeps space account keys (t.keep test) where
  stored role hr := by
    obtain ⟨r, hf, hk⟩ := h.stored role hr
    obtain ⟨hm, hl⟩ := Table.found hf
    have htest : test r = true := by
      by_contra hn
      exact ht r hm (Bool.eq_false_iff.mpr hn) role hr hl
    rw [Table.find?_keep, hf, Option.filter_some_pos htest]
    exact ⟨r, rfl, hk⟩
  carriers r hm := h.carriers r (Table.mem_keep.mp hm).1
  holders r hm := h.holders r (Table.mem_keep.mp hm).1

/-- Records at fixed names are no records of the keys, and taking them on does not bring the id to
them: the label finds both records already, and no record at a fixed name holds the root key. -/
theorem Keeps.of_adopts {space' account' id : String} {loc : Location} {l : Labels}
    (h : Keeps space account keys t) (ha : Adopts t space' account' id loc l) :
    (∀ role ∈ keyRoles, loc ≠ keyLocation space account keys role) ∧
      (loc.space = space → l.get? Label.accountId ≠ some keys.accountId) := by
  cases ha with
  | intro hr hc hk =>
    rename_i role key?
    constructor
    · intro role' _ he
      exact keyName_ne_fixedName account keys.accountId role' account' role
        (congrArg Location.name he).symm
    · intro hspace hid
      obtain rfl : space' = space := hspace
      cases key? with
      | none =>
        change ((Dict.empty.insert Label.secretRole role.text).insert Label.managed
          Label.managedValue).get? _ = _ at hid
        rw [Dict.get?_insert_of_ne _ _ (by decide), Dict.get?_insert_of_ne _ _ (by decide)] at hid
        contradiction
      | some k =>
        rw [adoptionLabels, Dict.get?_insert_self] at hid
        obtain rfl : k = keys.accountId := Option.some.inj hid
        obtain ⟨r, hm, hs, hcarries, hholds⟩ := hk _ rfl
        have hloc := h.holders r hm hs hholds
        rcases hcarries with hcarries | hname
        · obtain ⟨r', hf, hkey⟩ := h.stored .accountRoot (by decide)
          obtain ⟨hm', hloc'⟩ := Table.found hf
          obtain rfl := Table.eq_of_location_eq hm hm' (hloc.trans hloc'.symm)
          obtain rfl : keys.accountId = id := Option.some.inj (hkey.hasId.symm.trans hcarries)
          obtain ⟨root, signing, -, -, hsplit⟩ := h.splitRecords account'
          exact hc ⟨root, signing, hsplit⟩
        · exact keyName_ne_fixedName account keys.accountId .accountRoot account' .accountRoot
            ((congrArg Location.name hloc).symm.trans hname)

/-- Nothing in a scope touches the records of the keys, and nothing in it makes another record of
the namespace carry their id or hold their root key. -/
structure Spares (s : Scope) (space account : String) (keys : AccountKeys) : Prop where
  apart : ∀ {loc l d}, s.writes loc l d →
    ∀ role ∈ keyRoles, loc ≠ keyLocation space account keys role
  ids : ∀ {loc l d}, s.writes loc l d → l.get? Label.accountId ≠ some keys.accountId
  seeds : ∀ {loc l d}, s.writes loc l d → ∀ r : Record, r.data = d → ¬ HoldsKey r keys.accountId
  relabels : ∀ {loc l}, s.relabels loc l →
    (∀ role ∈ keyRoles, loc ≠ keyLocation space account keys role) ∧
      (loc.space = space → l.get? Label.accountId ≠ some keys.accountId)
  removes : ∀ {r}, s.removes r → r.space = space →
    r.labels.get? Label.accountId = some keys.accountId →
      ∀ role ∈ keyRoles, r.location ≠ keyLocation space account keys role

/-- Labels that do not name the id bring it to no record that had none of it. -/
theorem Keeps.overlay_ne {r : Record} {l : Labels} (h : Keeps space account keys t)
    (hm : r ∈ t.records) (hl : ∀ role ∈ keyRoles, r.location ≠ keyLocation space account keys role)
    (hid : l.get? Label.accountId ≠ some keys.accountId) (hs : r.space = space) :
    (r.labels.overlay l).get? Label.accountId ≠ some keys.accountId := by
  rw [Dict.get?_overlay]
  cases hg : l.get? Label.accountId with
  | some v =>
    rw [Option.some_or, ← hg]
    exact hid
  | none =>
    rw [Option.none_or]
    intro hid'
    obtain ⟨role, hr, hloc⟩ := h.carriers r hm hs hid'
    exact hl role hr hloc

theorem keeps_of_step (hs : Spares s space account keys) (h : Keeps space account keys t)
    (hstep : Step s t t') : Keeps space account keys t' := by
  cases hstep with
  | create owner hn hw =>
    rename_i loc l d
    refine h.put (hs.apart hw) (fun _ => ?_) fun _ => hs.seeds hw _ rfl
    rw [fresh, Dict.get?_insert_of_ne _ _ (by decide)]
    exact hs.ids hw
  | rewrite hf hm hw =>
    rename_i loc l d r
    obtain ⟨hmem, rfl⟩ := Table.found hf
    refine h.put (hs.apart hw) (fun hspace => ?_) fun _ => hs.seeds hw _ rfl
    exact h.overlay_ne hmem (hs.apart hw) (hs.ids hw) hspace
  | relabel hf hr =>
    rename_i loc l r
    obtain ⟨hmem, rfl⟩ := Table.found hf
    obtain ⟨hapart, hid⟩ := hs.relabels hr
    refine h.put hapart (fun hspace => ?_) fun hspace hk => ?_
    · exact h.overlay_ne hmem hapart (hid hspace) hspace
    · exact hapart .accountRoot (by decide) (h.holders r hmem hspace hk)
  | remove hr =>
    refine h.keep fun r hmem ht role hrole hloc => ?_
    obtain ⟨r', hf, hk⟩ := h.stored role hrole
    obtain ⟨hmem', hloc'⟩ := Table.found hf
    obtain rfl := Table.eq_of_location_eq hmem hmem' (hloc.trans hloc'.symm)
    exact hs.removes (hr r hmem ht) (congrArg Location.space hloc) hk.hasId role hrole hloc

theorem keeps_of_steps (hs : Spares s space account keys) (h : Keeps space account keys t)
    (hsteps : Steps s t t') : Keeps space account keys t' := by
  induction hsteps with
  | refl => exact h
  | tail _ hstep ih => exact keeps_of_step hs ih hstep

/-! ## Storing -/

/-- A write that succeeds leaves a record with the labels and the data. -/
theorem put_ok {owner : Option Owner} {loc : Location} {l : Labels} {d : Dict String}
    (h : put owner loc l d t = .ok () t') :
    ∃ r, t' = t.put r ∧ r.location = loc ∧ r.data = d ∧
      ∀ k v, k ≠ Label.managed → l.get? k = some v → r.labels.get? k = some v := by
  rw [put_eq] at h
  cases hf : t.find? loc with
  | none =>
    simp only [hf, EStateM.Result.ok.injEq, true_and] at h
    refine ⟨_, h.symm, rfl, rfl, fun k v hk hv => ?_⟩
    rw [fresh, Dict.get?_insert_of_ne _ _ hk, hv]
  | some r =>
    simp only [hf] at h
    split at h
    · simp only [EStateM.Result.ok.injEq, true_and] at h
      refine ⟨_, h.symm, (Table.found hf).2, rfl, fun k v _ hv => ?_⟩
      rw [revised, Dict.get?_overlay, hv, Option.some_or]
    · contradiction

theorem role_keyLabels (role : Role) (id : String) :
    (keyLabels role id).get? Label.secretRole = some role.text := by
  change ((Dict.empty.insert Label.secretRole role.text).insert Label.accountId id).get? _ = _
  rw [Dict.get?_insert_of_ne _ _ (by decide), Dict.get?_insert_self]

theorem id_keyLabels (role : Role) (id : String) :
    (keyLabels role id).get? Label.accountId = some id := by
  change ((Dict.empty.insert Label.secretRole role.text).insert Label.accountId id).get? _ = _
  rw [Dict.get?_insert_self]

theorem storeKey_ok {role : Role}
    (h : storeKey space account keys.accountId role (keys.ofRole role) t = .ok () t') :
    ∃ r, t' = t.put r ∧ r.location = keyLocation space account keys role ∧
      IsKeyRecord keys role r := by
  obtain ⟨r, ht, hloc, hd, hl⟩ := put_ok h
  exact ⟨r, ht, hloc, hl _ _ (by decide) (role_keyLabels role keys.accountId),
    hl _ _ (by decide) (id_keyLabels role keys.accountId), hd⟩

/-- A key record holds no key but the one that it was made for. -/
theorem publicText_of_holdsKey {role : Role} {r : Record} {id : String} (hs : keys.Sound)
    (hr : role ∈ keyRoles) (hd : r.data = keyData (keys.ofRole role)) (hk : HoldsKey r id) :
    (keys.ofRole role).publicText = id := by
  obtain ⟨seed, pair, hseed, hpair, hid⟩ := hk
  rw [Record.value?, hd, value?_keyData] at hseed
  have hread := hs role hr
  rw [Option.some.inj hseed, keyOfSeedFor, hpair] at hread
  simp only [] at hread
  split at hread
  · rw [← Except.ok.inj hread, hid]
  · exact nomatch hread

/-- A table keeps the keys whose two records were put in it, if nothing of their id was there. -/
theorem keeps_of_put {root signing : Record} (hs : keys.Sound)
    (hne : keys.signing.publicText ≠ keys.accountId)
    (hid : ∀ r ∈ t.records, r.space = space →
      r.labels.get? Label.accountId ≠ some keys.accountId)
    (hk : ∀ r ∈ t.records, r.space = space → ¬ HoldsKey r keys.accountId)
    (hloc : root.location = keyLocation space account keys .accountRoot)
    (hroot : IsKeyRecord keys .accountRoot root)
    (hloc' : signing.location = keyLocation space account keys .accountSigning)
    (hsigning : IsKeyRecord keys .accountSigning signing) :
    Keeps space account keys ((t.put root).put signing) := by
  have hapart : keyLocation space account keys .accountSigning ≠
      keyLocation space account keys .accountRoot := fun he =>
    keyName_root_ne_signing account keys.accountId (congrArg Location.name he).symm
  have hmem : ∀ r ∈ ((t.put root).put signing).records, r = signing ∨ r = root ∨ r ∈ t.records := by
    intro r hm
    rcases Table.mem_put.mp hm with rfl | ⟨hm, -⟩
    · exact .inl rfl
    · exact .inr ((Table.mem_put.mp hm).imp_right And.left)
  constructor
  · intro role hrole
    rcases List.mem_cons.mp hrole with rfl | hrole
    · refine ⟨root, ?_, hroot⟩
      rw [Table.find?_put, hloc', if_neg hapart, Table.find?_put, hloc]
      exact if_pos rfl
    · obtain rfl := List.mem_singleton.mp hrole
      refine ⟨signing, ?_, hsigning⟩
      rw [Table.find?_put, hloc']
      exact if_pos rfl
  · intro r hm hspace hcarries
    rcases hmem r hm with rfl | rfl | hm
    · exact ⟨.accountSigning, by decide, hloc'⟩
    · exact ⟨.accountRoot, by decide, hloc⟩
    · exact absurd hcarries (hid r hm hspace)
  · intro r hm hspace hholds
    rcases hmem r hm with rfl | rfl | hm
    · have hrole : Role.accountSigning ∈ keyRoles := by decide
      exact absurd (publicText_of_holdsKey hs hrole hsigning.hasData hholds) hne
    · exact hloc
    · exact absurd hholds (hk r hm hspace)

/-- Storing new keys makes the table keep them, if nothing of their id was there before. -/
theorem keeps_storeAccountKeys (hs : keys.Sound)
    (hne : keys.signing.publicText ≠ keys.accountId)
    (hid : ∀ r ∈ t.records, r.space = space →
      r.labels.get? Label.accountId ≠ some keys.accountId)
    (hk : ∀ r ∈ t.records, r.space = space → ¬ HoldsKey r keys.accountId)
    (h : storeAccountKeys space account keys t = .ok () t') : Keeps space account keys t' := by
  change EStateM.bind (storeKey space account keys.accountId .accountRoot keys.root) _ t = _ at h
  cases hr : storeKey space account keys.accountId .accountRoot keys.root t with
  | error e t₁ =>
    rw [EStateM.bind, hr] at h
    exact nomatch h
  | ok _ t₁ =>
    rw [EStateM.bind, hr] at h
    obtain ⟨root, rfl, hloc, hroot⟩ := storeKey_ok hr
    obtain ⟨signing, rfl, hloc', hsigning⟩ := storeKey_ok h
    exact keeps_of_put hs hne hid hk hloc hroot hloc' hsigning

/-- Keys that were stored in an empty namespace are loaded. -/
theorem accountKeys_of_stored (hs : keys.Sound) (hne : keys.signing.publicText ≠ keys.accountId)
    (hempty : ∀ r ∈ t.records, r.space ≠ space)
    (h : storeAccountKeys space account keys t = .ok () t') :
    accountKeys space account (some keys.accountId) t' = .ok keys t' := by
  have hkeeps := keeps_storeAccountKeys hs hne
    (fun r hr hspace => absurd hspace (hempty r hr))
    (fun r hr hspace => absurd hspace (hempty r hr)) h
  exact accountKeys_of_keeps hkeeps hs

/-- The record of a new key. -/
def keyRecord (space account : String) (keys : AccountKeys) (role : Role) : Record :=
  fresh none (keyLocation space account keys role) (keyLabels role keys.accountId)
    (keyData (keys.ofRole role))

theorem put_of_free {loc : Location} (hf : t.find? loc = none) (owner : Option Owner) (l : Labels)
    (d : Dict String) : put owner loc l d t = .ok () (t.put (fresh owner loc l d)) := by
  rw [put_eq, hf]

theorem storeKey_of_free {role : Role}
    (hf : t.find? (keyLocation space account keys role) = none) :
    storeKey space account keys.accountId role (keys.ofRole role) t =
      .ok () (t.put (keyRecord space account keys role)) :=
  put_of_free hf none (keyLabels role keys.accountId) (keyData (keys.ofRole role))

/-- New keys are stored where their names are free. -/
theorem storeAccountKeys_of_free
    (hf : ∀ role ∈ keyRoles, t.find? (keyLocation space account keys role) = none) :
    storeAccountKeys space account keys t =
      .ok () ((t.put (keyRecord space account keys .accountRoot)).put
        (keyRecord space account keys .accountSigning)) := by
  have hapart : (keyRecord space account keys .accountRoot).location ≠
      keyLocation space account keys .accountSigning := fun he =>
    keyName_root_ne_signing account keys.accountId (congrArg Location.name he)
  have hroot := storeKey_of_free (hf .accountRoot (by decide))
  have hsigning : (t.put (keyRecord space account keys .accountRoot)).find?
      (keyLocation space account keys .accountSigning) = none := by
    rw [Table.find?_put, if_neg hapart]
    exact hf .accountSigning (by decide)
  refine (bind_of_ok hroot).trans ?_
  exact storeKey_of_free hsigning

/-- The operator's key is read from the one record of its role. -/
theorem operatorKey_of_single {σ : Type} [Storage σ] {s : σ} {r : Record} {seed : String}
    {pair : Key.Pair}
    (hs : Storage.list space (labels [(Label.secretRole, Role.operatorSigning.text)]) s =
      .ok [r] s)
    (hv : r.value? seedKey = some seed) (hk : keyOfSeedFor Key.operatorLead seed = .ok pair) :
    operatorKey space s = .ok pair s := by
  have hsingle : single space .operatorSigning s = .ok r s := by
    unfold single
    exact (bind_of_ok hs).trans rfl
  refine (bind_of_ok hsingle).trans ?_
  simp only [hv, hk]
  rfl

end CredentialEngine.Keyring
