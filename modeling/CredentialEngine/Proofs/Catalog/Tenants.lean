import CredentialEngine.Proofs.Catalog
import CredentialEngine.Proofs.Text.Splitting
import Mathlib.Data.List.Induction
import Mathlib.Data.Set.Function

/-!
# What lookups find after a history

Resources are put and taken out one after another. A lookup finds what was last put under a
namespace and a name that read alike when joined by a slash, so tenants are kept apart exactly as
far as the joined texts differ; without slashes in namespaces they do.
-/
namespace CredentialEngine.Catalog

/-- A namespace and a name in it. -/
abbrev Place := String × String

/-- The text under which what belongs to a place is filed. -/
def joined (p : Place) : String :=
  key p.1 p.2

/-! ## One kind of resource -/

/-- A resource of one kind is put, or what has a namespace and a name is taken out. -/
inductive Filing (α : Type) where
  | put (x : α)
  | takeOut (space name : String)

namespace Filing

variable {α : Type} (metadata : α → Metadata)

def placeOf (x : α) : Place :=
  ((metadata x).space, (metadata x).name)

def place : Filing α → Place
  | put x => placeOf metadata x
  | takeOut space name => (space, name)

/-- The resource that is then filed under the place. -/
def given? : Filing α → Option α
  | put x => some x
  | takeOut _ _ => none

def apply (d : Dict α) : Filing α → Dict α
  | put x => d.insert (metadata x).key x
  | takeOut space name => d.erase (key space name)

/-- What is filed after a history. -/
def filed (fs : List (Filing α)) : Dict α :=
  fs.foldl (apply metadata) .empty

/-- A resource was put, and later filings are about other places, as far as an address tells. -/
def LastPut {κ : Type} (address : Place → κ) (fs : List (Filing α)) (x : α) : Prop :=
  ∃ before after, fs = before ++ .put x :: after ∧
    ∀ f ∈ after, address (f.place metadata) ≠ address (placeOf metadata x)

variable {metadata} {κ : Type} {address : Place → κ} {fs : List (Filing α)} {x : α}

theorem not_lastPut_nil : ¬ LastPut metadata address [] x := by
  rintro ⟨before, after, he, -⟩
  simp at he

/-- What one more filing makes of what was last put. -/
theorem lastPut_concat {f : Filing α} :
    LastPut metadata address (fs ++ [f]) x ↔
      f = .put x ∨ LastPut metadata address fs x ∧
        address (f.place metadata) ≠ address (placeOf metadata x) := by
  constructor
  · rintro ⟨before, after, he, hafter⟩
    rcases List.eq_nil_or_concat after with rfl | ⟨after, f', rfl⟩
    · exact .inl (List.cons.inj (List.append_inj' he rfl).2).1
    · rw [List.concat_eq_append, ← List.cons_append, ← List.append_assoc] at he
      obtain ⟨rfl, hlast⟩ := List.append_inj' he rfl
      obtain rfl := (List.cons.inj hlast).1
      rw [List.concat_eq_append] at hafter
      exact .inr ⟨⟨before, after, rfl, fun g hg => hafter g (List.mem_append_left _ hg)⟩,
        hafter f (List.mem_append_right _ List.mem_cons_self)⟩
  · rintro (rfl | ⟨⟨before, after, rfl, hafter⟩, hne⟩)
    · exact ⟨fs, [], rfl, nofun⟩
    · refine ⟨before, after ++ [f], by simp, fun g hg => ?_⟩
      rcases List.mem_append.mp hg with hg | hg
      · exact hafter g hg
      · exact List.mem_singleton.mp hg ▸ hne

theorem LastPut.mem (h : LastPut metadata address fs x) : .put x ∈ fs := by
  obtain ⟨before, after, rfl, -⟩ := h
  exact List.mem_append_right _ List.mem_cons_self

/-- Filings about different addresses are about different places. -/
theorem LastPut.byPlace (h : LastPut metadata address fs x) : LastPut metadata id fs x := by
  obtain ⟨before, after, he, hafter⟩ := h
  exact ⟨before, after, he, fun f hf hp => hafter f hf (congrArg address hp)⟩

/-- Where addresses tell places apart, it does not matter which of them is compared. -/
theorem lastPut_iff_byPlace {S : Set Place} (hS : S.InjOn address)
    (hfs : ∀ f ∈ fs, f.place metadata ∈ S) :
    LastPut metadata address fs x ↔ LastPut metadata id fs x := by
  refine ⟨LastPut.byPlace, fun ⟨before, after, he, hafter⟩ => ?_⟩
  refine ⟨before, after, he, fun f hf hp => ?_⟩
  have hmem : ∀ g ∈ .put x :: after, g ∈ fs := fun g hg => he ▸ List.mem_append_right _ hg
  exact hafter f hf (hS (hfs f (hmem f (List.mem_cons_of_mem _ hf)))
    (hfs (.put x) (hmem _ List.mem_cons_self)) hp)

theorem given?_eq_some_iff {f : Filing α} : f.given? = some x ↔ f = .put x := by
  cases f with
  | put y => rw [given?, Option.some.injEq, put.injEq]
  | takeOut space name => exact ⟨nofun, nofun⟩

theorem get?_apply (d : Dict α) (f : Filing α) (k : String) :
    (apply metadata d f).get? k =
      if k = joined (f.place metadata) then f.given? else d.get? k := by
  cases f with
  | put x => exact Dict.get?_insert d _ k x
  | takeOut space name => exact Dict.get?_erase d _ k

/-- A key holds the resource that was last put, as far as joined texts tell. -/
theorem get?_filed {k : String} :
    (filed metadata fs).get? k = some x ↔
      LastPut metadata joined fs x ∧ joined (placeOf metadata x) = k := by
  induction fs using List.reverseRecOn with
  | nil =>
    rw [filed, List.foldl_nil, Dict.get?_empty]
    exact ⟨nofun, fun h => absurd h.1 not_lastPut_nil⟩
  | append_singleton fs f ih =>
    have hstep : filed metadata (fs ++ [f]) = apply metadata (filed metadata fs) f := by
      rw [filed, List.foldl_append]
      rfl
    rw [hstep, get?_apply, lastPut_concat]
    -- the last filing decides what its own key holds and leaves the other keys alone
    by_cases hk : k = joined (f.place metadata)
    · rw [if_pos hk, given?_eq_some_iff]
      constructor
      · rintro rfl
        exact ⟨.inl rfl, hk.symm⟩
      · rintro ⟨hput | ⟨-, hne⟩, hx⟩
        · exact hput
        · exact absurd (hk.symm.trans hx.symm) hne
    · rw [if_neg hk, ih]
      constructor
      · rintro ⟨hlast, rfl⟩
        exact ⟨.inr ⟨hlast, Ne.symm hk⟩, rfl⟩
      · rintro ⟨rfl | ⟨hlast, -⟩, hx⟩
        · exact absurd hx.symm hk
        · exact ⟨hlast, hx⟩

/-- What is filed is what was last put, and each resource is filed once. -/
theorem mem_entries_filed :
    x ∈ (filed metadata fs).entries.map (·.2) ↔ LastPut metadata joined fs x := by
  rw [List.mem_map]
  constructor
  · rintro ⟨⟨k, y⟩, he, rfl⟩
    exact (get?_filed.mp (Dict.get?_eq_some_iff.mpr he)).1
  · intro h
    exact ⟨_, Dict.get?_eq_some_iff.mp (get?_filed.mpr ⟨h, rfl⟩), rfl⟩

theorem nodup_entries_filed (metadata : α → Metadata) (fs : List (Filing α)) :
    ((filed metadata fs).entries.map (·.2)).Nodup := by
  have hkeys : ((filed metadata fs).entries.map (·.2)).map (fun x => joined (placeOf metadata x)) =
      (filed metadata fs).keys := by
    rw [List.map_map, Dict.keys]
    refine List.map_congr_left fun e he => ?_
    exact (get?_filed.mp (Dict.get?_eq_some_iff.mpr he)).2
  refine List.Nodup.of_map (fun x => joined (placeOf metadata x)) ?_
  rw [hkeys]
  exact (Dict.pairwise_keys _).imp fun {k l} (hlt : k < l) (he : k = l) =>
    String.lt_irrefl l (he ▸ hlt)

end Filing

/-! ## Histories of a catalog -/

inductive Change where
  | account (f : Filing Account)
  | user (f : Filing User)

namespace Change

def apply (c : Catalog) : Change → Catalog
  | account (.put a) => c.putAccount a
  | account (.takeOut space name) => c.removeAccount space name
  | user (.put u) => c.putUser u
  | user (.takeOut space name) => c.removeUser space name

def place : Change → Place
  | account f => f.place Account.metadata
  | user f => f.place User.metadata

def account? : Change → Option (Filing Account)
  | account f => some f
  | user _ => none

def user? : Change → Option (Filing User)
  | account _ => none
  | user f => some f

theorem place_of_account? (c : Change) (f : Filing Account) (h : c.account? = some f) :
    f.place Account.metadata = c.place := by
  cases c with
  | account g => exact Option.some.inj h ▸ rfl
  | user g => contradiction

theorem place_of_user? (c : Change) (f : Filing User) (h : c.user? = some f) :
    f.place User.metadata = c.place := by
  cases c with
  | account g => contradiction
  | user g => exact Option.some.inj h ▸ rfl

end Change

/-- The catalog that a history leaves, starting from nothing. -/
def after (cs : List Change) : Catalog :=
  cs.foldl Change.apply {}

/-- The account was put last under its namespace and name, and not taken out since. -/
def AccountStands (cs : List Change) (a : Account) : Prop :=
  Filing.LastPut Account.metadata id (cs.filterMap Change.account?) a

/-- The user was put last under its namespace and name, and not taken out since. -/
def UserStands (cs : List Change) (u : User) : Prop :=
  Filing.LastPut User.metadata id (cs.filterMap Change.user?) u

theorem accounts_users_after (cs : List Change) :
    (after cs).accounts = Filing.filed Account.metadata (cs.filterMap Change.account?) ∧
      (after cs).users = Filing.filed User.metadata (cs.filterMap Change.user?) := by
  induction cs using List.reverseRecOn with
  | nil => exact ⟨rfl, rfl⟩
  | append_singleton cs c ih =>
    have hstep : after (cs ++ [c]) = Change.apply (after cs) c := by
      rw [after, List.foldl_append]
      rfl
    rw [hstep, List.filterMap_append, List.filterMap_append, Filing.filed, Filing.filed,
      List.foldl_append, List.foldl_append, ← Filing.filed, ← Filing.filed, ← ih.1, ← ih.2]
    rcases c with f | f <;> rcases f with x | ⟨space, name⟩ <;> exact ⟨rfl, rfl⟩

/-- The look-up of an account goes by the joined text. -/
theorem account?_after {cs : List Change} {p : Place} {a : Account} :
    (after cs).account? p.1 p.2 = some a ↔
      Filing.LastPut Account.metadata joined (cs.filterMap Change.account?) a ∧
        joined (Filing.placeOf Account.metadata a) = joined p := by
  rw [account?, (accounts_users_after cs).1]
  exact Filing.get?_filed

/-- The users of an account are found by their namespace and account name, among those that are
filed. -/
theorem mem_usersOf_after {cs : List Change} {space name : String} {u : User} :
    u ∈ (after cs).usersOf space name ↔
      Filing.LastPut User.metadata joined (cs.filterMap Change.user?) u ∧
        u.metadata.space = space ∧ u.spec.accountName = name := by
  rw [usersOf, List.mem_filter, (accounts_users_after cs).2, Filing.mem_entries_filed,
    Bool.and_eq_true, beq_iff_eq, beq_iff_eq]

theorem nodup_usersOf_after (cs : List Change) (space name : String) :
    ((after cs).usersOf space name).Nodup := by
  rw [usersOf, (accounts_users_after cs).2]
  exact (Filing.nodup_entries_filed User.metadata _).filter _

/-- Listing a namespace's users never reaches into another one, whatever was put. -/
theorem userStands_of_mem_usersOf {cs : List Change} {space name : String} {u : User}
    (h : u ∈ (after cs).usersOf space name) :
    UserStands cs u ∧ u.metadata.space = space ∧ u.spec.accountName = name :=
  let ⟨hlast, hsame⟩ := mem_usersOf_after.mp h
  ⟨hlast.byPlace, hsame⟩

theorem idOf_standing {c : Catalog} {space name id : String} :
    c.standing.idOf space name = .ok id ↔
      ∃ a, c.account? space name = some a ∧ a.id? = some id := by
  rw [Claims.Resolver.idOf, standing]
  cases c.account? space name with
  | none => simp
  | some a => cases ha : a.id? <;> simp [ha]

/-! ## Tenants kept apart -/

/-- Lookups at the places of a set find what was put last under exactly the namespace and name that
are asked for and not taken out since. The users of an account are those of its namespace that name
it, each listed once. -/
structure Scoped (S : Set Place) (cs : List Change) : Prop where
  account : ∀ p ∈ S, ∀ a, (after cs).account? p.1 p.2 = some a ↔
    AccountStands cs a ∧ a.metadata.space = p.1 ∧ a.metadata.name = p.2
  issued : ∀ p ∈ S, ∀ id, (after cs).standing.idOf p.1 p.2 = .ok id ↔
    ∃ a, AccountStands cs a ∧ a.metadata.space = p.1 ∧ a.metadata.name = p.2 ∧ a.id? = some id
  users : ∀ space name u, u ∈ (after cs).usersOf space name ↔
    UserStands cs u ∧ u.metadata.space = space ∧ u.spec.accountName = name
  once : ∀ space name, ((after cs).usersOf space name).Nodup

section Places

variable {S : Set Place} {cs : List Change} (hcs : ∀ c ∈ cs, c.place ∈ S)

include hcs

/-- The filings of one kind are about places of their history. -/
theorem place_mem_of_filterMap {α : Type} {metadata : α → Metadata}
    {filing? : Change → Option (Filing α)}
    (h : ∀ c f, filing? c = some f → f.place metadata = c.place) :
    ∀ f ∈ cs.filterMap filing?, f.place metadata ∈ S := by
  intro f hf
  obtain ⟨c, hc, hsome⟩ := List.mem_filterMap.mp hf
  exact h c f hsome ▸ hcs c hc

theorem account?_after_of_injOn (hS : S.InjOn joined) {p : Place} (hp : p ∈ S) {a : Account} :
    (after cs).account? p.1 p.2 = some a ↔
      AccountStands cs a ∧ a.metadata.space = p.1 ∧ a.metadata.name = p.2 := by
  have hplaces := place_mem_of_filterMap hcs Change.place_of_account?
  rw [account?_after, Filing.lastPut_iff_byPlace hS hplaces]
  refine and_congr_right fun hlast => ?_
  have ha : Filing.placeOf Account.metadata a ∈ S := hplaces _ hlast.mem
  rw [hS.eq_iff ha hp, Filing.placeOf, Prod.ext_iff]

theorem scoped_of_injOn (hS : S.InjOn joined) : Scoped S cs where
  account p hp a := account?_after_of_injOn hcs hS hp
  issued p hp id := by
    rw [idOf_standing]
    simp only [account?_after_of_injOn hcs hS hp, and_assoc]
  users space name u := by
    rw [mem_usersOf_after, Filing.lastPut_iff_byPlace hS
      (place_mem_of_filterMap hcs Change.place_of_user?), UserStands]
  once := nodup_usersOf_after cs

end Places

/-- A single account that is put is found at every place that reads like its own. -/
theorem account?_after_put {a : Account} {p : Place}
    (h : joined (Filing.placeOf Account.metadata a) = joined p) :
    (after [.account (.put a)]).account? p.1 p.2 = some a := by
  have hlast : Filing.LastPut Account.metadata joined ([] ++ [.put a]) a :=
    Filing.lastPut_concat.mpr (.inl rfl)
  exact account?_after.mpr ⟨hlast, h⟩

theorem injOn_of_scoped {S : Set Place} (h : ∀ cs, (∀ c ∈ cs, c.place ∈ S) → Scoped S cs) :
    S.InjOn joined := by
  intro p hp q hq he
  -- an account that is put at the one place is found at the other, where only its own may be
  obtain ⟨a, rfl⟩ : ∃ a : Account, Filing.placeOf Account.metadata a = p :=
    ⟨{ metadata := { space := p.1, name := p.2 } }, rfl⟩
  have hscoped := h [.account (.put a)] fun c hc => List.mem_singleton.mp hc ▸ hp
  obtain ⟨-, hspace, hname⟩ := (hscoped.account q hq a).mp (account?_after_put he)
  exact Prod.ext hspace hname

/-- A namespace without a slash ends at the first slash of the joined text. -/
theorem injOn_joined_of_no_slash : Set.InjOn joined {p | '/' ∉ p.1.toList} := by
  have hchars : ∀ p, (joined p).toList = p.1.toList ++ '/' :: p.2.toList := by
    intro p
    rw [joined, key, String.toList_append, String.toList_append, List.append_assoc]
    rfl
  intro p hp q hq he
  have hl := congrArg String.toList he
  rw [hchars, hchars] at hl
  have hparts := congrArg (Text.parts '/') hl
  rw [Text.parts_append hp, Text.parts_append hq] at hparts
  have hspace := (List.cons.inj hparts).1
  rw [hspace] at hl
  exact Prod.ext (String.toList_inj.mp hspace)
    (String.toList_inj.mp (List.cons.inj (List.append_cancel_left hl)).2)

/-- Tenants are kept apart over all histories among some places exactly if no two of the places read
alike when joined, as is so where no namespace has a slash. Without any such condition, the users
that are listed for an account are of its namespace, name the account, and stand. -/
theorem scoped_iff_injOn_joined (S : Set Place) :
    ((∀ cs, (∀ c ∈ cs, c.place ∈ S) → Scoped S cs) ↔ S.InjOn joined) ∧
      ((∀ p ∈ S, '/' ∉ p.1.toList) → S.InjOn joined) ∧
      ∀ cs space name, ∀ u ∈ (after cs).usersOf space name,
        UserStands cs u ∧ u.metadata.space = space ∧ u.spec.accountName = name :=
  ⟨⟨injOn_of_scoped, fun hS _ hcs => scoped_of_injOn hcs hS⟩, injOn_joined_of_no_slash.mono,
    fun _ _ _ _ => userStands_of_mem_usersOf⟩

/-- A user in a namespace that names an account. -/
def userOf (space name accountName : String) : User where
  metadata := { space := space, name := name }
  spec := { accountName := accountName }

/-- Two tenants have users of one name, and one of them is taken out. The account's own name may
hold a slash. -/
def twoTenants : List Change :=
  [.account (.put { metadata := { space := "shop", name := "eu/orders" } }),
    .user (.put (userOf "shop" "alice" "eu/orders")),
    .user (.put (userOf "other" "alice" "eu/orders")),
    .user (.takeOut "shop" "alice")]

theorem scoped_twoTenants :
    (∀ c ∈ twoTenants, c.place ∈ {p : Place | '/' ∉ p.1.toList}) ∧
    Scoped {p | '/' ∉ p.1.toList} twoTenants := by
  have hplaces : ∀ c ∈ twoTenants, c.place ∈ {p : Place | '/' ∉ p.1.toList} := by
    intro c hc
    simp only [twoTenants, List.mem_cons, List.not_mem_nil, or_false] at hc
    rcases hc with rfl | rfl | rfl | rfl <;> exact of_decide_eq_true rfl
  obtain ⟨happly, hslash, -⟩ := scoped_iff_injOn_joined {p | '/' ∉ p.1.toList}
  exact ⟨hplaces, happly.mpr (hslash fun p hp => hp) twoTenants hplaces⟩

def euOrders : Account where
  metadata := { space := "shop/eu", name := "orders" }

/-- Two users whose places read alike when joined. -/
def shadowing : List Change :=
  [.user (.put (userOf "shop/eu" "alice" "orders")),
    .user (.put (userOf "shop" "eu/alice" "orders"))]

/-- With a slash in a namespace, a look-up finds an account of another namespace, and a user that
stands is not listed any more once a user of another namespace has been put. -/
theorem tenants_crossed :
    (after [.account (.put euOrders)]).account? "shop" "eu/orders" = some euOrders ∧
    ¬ Scoped Set.univ [.account (.put euOrders)] ∧
    (after shadowing).usersOf "shop/eu" "orders" = [] ∧ ¬ Scoped Set.univ shadowing := by
  have hfound : (after [.account (.put euOrders)]).account? "shop" "eu/orders" = some euOrders := by
    decide +kernel
  have hlost : (after shadowing).usersOf "shop/eu" "orders" = [] := by
    decide +kernel
  refine ⟨hfound, fun h => ?_, hlost, fun h => ?_⟩
  · obtain ⟨-, hspace, -⟩ := (h.account ("shop", "eu/orders") (Set.mem_univ _) euOrders).mp hfound
    exact absurd hspace (by decide)
  · have hstands : UserStands shadowing (userOf "shop/eu" "alice" "orders") := by
      refine ⟨[], [.put (userOf "shop" "eu/alice" "orders")], rfl, fun f hf => ?_⟩
      rw [List.mem_singleton.mp hf]
      decide
    have hmem := (h.users "shop/eu" "orders" _).mpr ⟨hstands, rfl, rfl⟩
    rw [hlost] at hmem
    exact List.not_mem_nil hmem

end CredentialEngine.Catalog
