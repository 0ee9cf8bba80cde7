import CredentialEngine.Proofs.Lifecycle.Publication

/-!
# Creating an account

An account is created in two halves. Before its operator's key is read and its claims are built,
nothing is stored and no cluster is called. From then on both of its keys are stored, whatever
becomes of publishing the claims, and they are uploaded if a connection is established.
-/
namespace CredentialEngine.Lifecycle

open Secret Keyring CredentialEngine.Action Cluster

/-- What must be at hand before anything is stored for a new account: the operator's key, and claims
under the keys that are drawn for it. -/
structure Ready (setting : Setting) (resolver : Claims.Resolver) (a : Account) (t : Table) (n : Nat)
    (operator : Key.Pair) (claims : Claims.AccountClaims) : Prop where
  operator : operatorKey setting.operatorSpace t = .ok operator t
  claims : claimsOf resolver a (newKeys setting.keySource n) = .ok claims

/-- The record of a new key has three labels and the seed of the key. -/
structure IsNewKey (a : Account) (keys : AccountKeys) (role : Role) (r : Record) : Prop where
  location : r.location = keyLocation a.metadata.space a.metadata.name keys role
  labels : r.labels = Keyring.labels [(Label.secretRole, role.text),
    (Label.accountId, keys.accountId), (Label.managed, Label.managedValue)]
  owner : r.owner = none
  seed : ∃ seed, (keys.ofRole role).seedText? = some seed ∧ r.data = Dict.ofList [(seedKey, seed)]

/-- A table has gained the records of an account's two new keys and is otherwise as it was. -/
def GainsKeys (a : Account) (keys : AccountKeys) (t t' : Table) : Prop :=
  ∃ root signing, IsNewKey a keys .accountRoot root ∧ IsNewKey a keys .accountSigning signing ∧
    t'.records = t.records ++ [root, signing]

variable {setting : Setting} {resolver : Claims.Resolver} {a : Account} {t : Table}

/-! ## The two halves -/

/-- Keys that are drawn are stored with their seeds. -/
theorem isNewKey_keyRecord (source : Nat → List UInt8) (n : Nat) (role : Role)
    (hr : role ∈ keyRoles) : IsNewKey a (newKeys source n) role
      (keyRecord a.metadata.space a.metadata.name (newKeys source n) role) where
  location := rfl
  labels := rfl
  owner := rfl
  seed := by
    have hdrawn : ∃ m, (newKeys source n).ofRole role = accountPair source m := by
      rcases List.mem_cons.mp hr with rfl | hr
      · exact ⟨n, rfl⟩
      · obtain rfl := List.mem_singleton.mp hr
        exact ⟨n + 1, rfl⟩
    obtain ⟨m, hm⟩ := hdrawn
    obtain ⟨seed, hseed⟩ : ∃ seed, (accountPair source m).seedText? = some seed := ⟨_, rfl⟩
    refine ⟨seed, hm ▸ hseed, ?_⟩
    change keyData ((newKeys source n).ofRole role) = _
    rw [keyData, hm, hseed, Option.getD_some]

theorem records_put_of_free {r : Record} (h : t.find? r.location = none) :
    (t.put r).records = t.records ++ [r] := by
  have hnew : r.location ∉ t.records.map Record.location := by
    intro hm
    obtain ⟨r', hr', hl⟩ := List.mem_map.mp hm
    exact Table.find?_eq_none_iff.mp h r' hr' hl
  rw [Table.put, dif_neg hnew]

/-- Where the names of the new keys are free, storing them adds their two records. -/
theorem storeAccountKeys_gains {source : Nat → List UInt8} {n : Nat}
    (hfree : ∀ role ∈ keyRoles,
      t.find? (keyLocation a.metadata.space a.metadata.name (newKeys source n) role) = none) :
    ∃ t', storeAccountKeys a.metadata.space a.metadata.name (newKeys source n) t = .ok () t' ∧
      GainsKeys a (newKeys source n) t t' := by
  have hroot := isNewKey_keyRecord (a := a) source n .accountRoot (by decide)
  have hsigning := isNewKey_keyRecord (a := a) source n .accountSigning (by decide)
  refine ⟨_, storeAccountKeys_of_free hfree, _, _, hroot, hsigning, ?_⟩
  have hapart : keyLocation a.metadata.space a.metadata.name (newKeys source n) .accountRoot ≠
      keyLocation a.metadata.space a.metadata.name (newKeys source n) .accountSigning :=
    fun he => keyName_root_ne_signing _ _ (congrArg Location.name he)
  have hfirst := records_put_of_free (hroot.location ▸ hfree .accountRoot (by decide))
  have hsecond : (t.put (keyRecord a.metadata.space a.metadata.name (newKeys source n)
      .accountRoot)).find? (keyRecord a.metadata.space a.metadata.name (newKeys source n)
        .accountSigning).location = none := by
    rw [Table.find?_put, hsigning.location, hroot.location, if_neg hapart]
    exact hfree .accountSigning (by decide)
  rw [records_put_of_free hsecond, hfirst, List.append_assoc]
  rfl

variable {κ : Type} [Control κ] {w : World Table (Recorded κ)}

/-- Without the operator's key or without sound claims, creating fails with nothing stored and
nothing called. -/
theorem issueAccount_of_unready (h : ¬ ∃ operator claims,
    Ready setting resolver a w.secrets w.drawn operator claims) :
    ∃ e w', issueAccount setting resolver a w = .error (.failed e) w' ∧ w'.secrets = w.secrets ∧
      w'.cluster = w.cluster := by
  have hread : Ends (operatorKey setting.operatorSpace) (fun _ t' => t' = w.secrets)
      (fun t' => t' = w.secrets) w.secrets := ends_operatorKey
  have hsettles := settles_operatorKey setting.operatorSpace w.secrets
  cases hop : operatorKey setting.operatorSpace w.secrets with
  | error halt t =>
    obtain ⟨e, rfl⟩ := hsettles _ _ hop
    have hsame : t = w.secrets := by
      rw [Ends, hop] at hread
      exact hread
    refine ⟨e, { w with secrets := t }, ?_, hsame, rfl⟩
    unfold issueAccount
    change EStateM.bind (World.onSecrets (operatorKey setting.operatorSpace)) _ _ = _
    rw [EStateM.bind, World.onSecrets, onPart, hop]
  | ok operator t =>
    obtain rfl : t = w.secrets := hread.returned hop
    cases hcl : claimsOf resolver a (newKeys setting.keySource w.drawn) with
    | ok claims => exact absurd ⟨operator, claims, hop, hcl⟩ h
    | error fault =>
      refine ⟨.claims fault, { w with drawn := w.drawn + 2 }, ?_, rfl, rfl⟩
      unfold issueAccount
      change EStateM.bind (World.onSecrets (operatorKey setting.operatorSpace)) _ _ = _
      rw [EStateM.bind, World.onSecrets, onPart, hop]
      change EStateM.bind (ofClaims (claimsOf resolver a (newKeys setting.keySource w.drawn))) _ _ =
        _
      rw [EStateM.bind, hcl]
      rfl

/-- The operator's key that is read from a table has a seed to sign with. -/
theorem sign_of_operatorKey {space : String} {operator : Key.Pair} {t' : Table} (now : Int)
    (claims : Claims.AccountClaims) (h : operatorKey space t = .ok operator t') :
    ∃ token, claims.sign now operator = .ok token := by
  obtain ⟨-, r, hholds⟩ := (Lawful.ends_operatorKey (show Shows t t from rfl) space).returned h
  obtain ⟨text, -, hseed⟩ := hholds.holds
  obtain ⟨role, seed, rfl⟩ := Lawful.exists_ofSeed_of_keyOfSeedFor hseed
  exact ⟨_, rfl⟩

/-- Publishing makes one request, whether it returns or halts. -/
theorem requested_signAndPublish {operator : Key.Pair} {claims : Claims.AccountClaims}
    {token : String} {α : Type} {o : α} (hsign : claims.sign setting.now operator = .ok token)
    (w : World Table (Recorded κ)) :
    World.Requested setting (.upload token) w (leaves ((do
      signAndPublish setting operator claims
      return o) w)) := by
  refine Ends.leaves (P := World.Requested setting (.upload token) w) (ends_bind ?_)
  unfold signAndPublish
  rw [hsign]
  exact World.ends_connected_noted.mono (fun _ _ h => ends_pure h.2) fun _ h => h

/-- With everything at hand, both keys are stored and the token of the claims is uploaded if a
connection is established, whatever becomes of publishing. -/
theorem issueAccount_of_ready {operator : Key.Pair} {claims : Claims.AccountClaims}
    (h : Ready setting resolver a w.secrets w.drawn operator claims)
    (hfree : ∀ role ∈ keyRoles, w.secrets.find? (keyLocation a.metadata.space a.metadata.name
      (newKeys setting.keySource w.drawn) role) = none) :
    ∃ token w', claims.sign setting.now operator = .ok token ∧
      w' = leaves (issueAccount setting resolver a w) ∧
      GainsKeys a (newKeys setting.keySource w.drawn) w.secrets w'.secrets ∧
      w'.cluster.uploads = w.cluster.uploads ++
        if w.cluster.reaches (World.credentials w') setting.operatorSpace then [token] else [] := by
  obtain ⟨token, hsign⟩ := sign_of_operatorKey setting.now claims h.operator
  obtain ⟨t', hstore, hgains⟩ := storeAccountKeys_gains hfree
  have hrequested := requested_signAndPublish
    (o := signedOutcome claims operator (newKeys setting.keySource w.drawn)) hsign
    { w with secrets := t', drawn := w.drawn + 2 }
  rw [← issueAccount_of_stored h.operator h.claims hstore] at hrequested
  have hsecrets : (leaves (issueAccount setting resolver a w)).secrets = t' := hrequested.secrets
  have hcredentials : World.credentials (leaves (issueAccount setting resolver a w)) =
      World.credentials ({ w with secrets := t', drawn := w.drawn + 2 } :
        World Table (Recorded κ)) := by
    funext space
    rw [World.credentials, hsecrets]
    rfl
  refine ⟨token, _, hsign, rfl, ?_, ?_⟩
  · rw [hsecrets]
    exact hgains
  · rw [hcredentials]
    exact hrequested.uploads_eq

/-! ## All or nothing -/

/-- Creating an account is all or nothing up to publishing. Without the operator's key or without
sound claims it fails with nothing stored and nothing called. In every other case, whether the
connection fails, the cluster rejects the token or takes it, and wherever the engine halts, the
table gains the records of the two new keys and nothing else, and the token of the claims is
uploaded once if the connection is established, and not otherwise. -/
theorem creation_all_or_nothing (setting : Setting) (resolver : Claims.Resolver) (a : Account)
    (w : World Table (Recorded κ))
    (hfree : ∀ role ∈ keyRoles, w.secrets.find? (keyLocation a.metadata.space a.metadata.name
      (newKeys setting.keySource w.drawn) role) = none) :
    ((¬ ∃ operator claims, Ready setting resolver a w.secrets w.drawn operator claims) →
      ∃ e w', issueAccount setting resolver a w = .error (.failed e) w' ∧
        w'.secrets = w.secrets ∧ w'.cluster = w.cluster) ∧
    ∀ operator claims, Ready setting resolver a w.secrets w.drawn operator claims →
      ∃ token w', claims.sign setting.now operator = .ok token ∧
        w' = leaves (issueAccount setting resolver a w) ∧
        GainsKeys a (newKeys setting.keySource w.drawn) w.secrets w'.secrets ∧
        w'.cluster.uploads = w.cluster.uploads ++
          if w.cluster.reaches (World.credentials w') setting.operatorSpace then [token] else [] :=
  ⟨issueAccount_of_unready, fun _ _ hready => issueAccount_of_ready hready hfree⟩

/-- The two keys of a new account of the shop are stored and its token is uploaded. -/
theorem creation_all_or_nothing_orders :
    ∃ token w', ordersClaims.sign 0 shopOperator = .ok token ∧
      w' = leaves (issueAccount shopSetting (Catalog.standing {}) orders
        ⟨shopWorld.secrets, notedShop.cluster.default, 0⟩) ∧
      GainsKeys orders ordersKeys shopWorld.secrets w'.secrets ∧ w'.cluster.uploads = [token] := by
  have hready : Ready shopSetting (Catalog.standing {}) orders shopWorld.secrets 0 shopOperator
      ordersClaims := ⟨operatorKey_shop, claimsOf_orders⟩
  exact (creation_all_or_nothing shopSetting (Catalog.standing {}) orders
    ⟨shopWorld.secrets, notedShop.cluster.default, 0⟩
    fun role _ => free_in_shop "orders" ordersKeys role).2 shopOperator ordersClaims hready

end CredentialEngine.Lifecycle
