import CredentialEngine.Proofs.Claims.Shapes
import CredentialEngine.Proofs.Resource.Account
import CredentialEngine.Resource.User

/-!
# The documents of users

The document of a user keeps the user, if the durations of its reply rules are below `2 ^ 53`
nanoseconds and its points in time lie in years of four digits.
-/
namespace CredentialEngine

open Json

variable {n : Nat}

/-! ## Permissions -/

theorem SubjectRules.keeps (r : SubjectRules) : Keeps (n + 2) SubjectRules.ofJson? r.toJson r := by
  have hallow := keepsField_unlessEmpty fun s (_ : s ∈ r.allow) => keeps_text n s
  have hdeny := keepsField_unlessEmpty fun s (_ : s ∈ r.deny) => keeps_text n s
  refine SubjectRules.faithful.keeps (fits_record ?_).readable
  simp only [List.forall_mem_cons, List.not_mem_nil, false_implies, implies_true, and_true]
  exact ⟨hallow.fits, hdeny.fits⟩

theorem ReplyRule.keeps {r : ReplyRule} (hexact : ∀ d ∈ r.expires, d.IsExact) :
    Keeps (n + 1) ReplyRule.ofJson? r.toJson r := by
  have hmessages := (keeps_int64 n r.maxMessages).required
  have hexpires := keepsField_optional fun d hd => keeps_duration n (hexact d hd)
  refine keeps_record (by decide) (by rfl) ?_ ?_
  · simp only [List.forall_mem_cons, List.not_mem_nil, false_implies, implies_true, and_true]
    exact ⟨hmessages.fits, hexpires.fits⟩
  · simp only [List.map_cons, List.map_nil, ↓hmessages.bind_get, ↓hexpires.bind_get]
    rfl

/-- How long replies are permitted. -/
def Permissions.expiry? (p : Permissions) : Option Duration :=
  p.reply.bind (·.expires)

theorem Permissions.keeps {p : Permissions} (hexact : ∀ d ∈ p.expiry?, d.IsExact) :
    Keeps (n + 3) Permissions.ofJson? p.toJson p := by
  have hpublish := (SubjectRules.keeps (n := n) p.publish).defaulted {}
  have hsubscribe := (SubjectRules.keeps (n := n) p.subscribe).defaulted {}
  have hreply := keepsField_optional fun r (hr : r ∈ p.reply) =>
    ReplyRule.keeps (n := n + 1) fun d hd => hexact d (Option.mem_bind_iff.mpr ⟨r, hr, hd⟩)
  refine keeps_record (by decide) (by rfl) ?_ ?_
  · simp only [List.forall_mem_cons, List.not_mem_nil, false_implies, implies_true, and_true]
    exact ⟨hpublish.fits, hsubscribe.fits, hreply.fits⟩
  · simp only [List.map_cons, List.map_nil, ↓hpublish.bind_get, ↓hsubscribe.bind_get,
      ↓hreply.bind_get]
    rfl

/-! ## Limits -/

theorem Window.keeps (w : Window) : Keeps (n + 1) Window.ofJson? w.toJson w := by
  have hstart := (keeps_text n w.start).required
  have hstop := (keeps_text n w.stop).required
  refine Window.faithful.keeps (fits_record ?_).readable
  simp only [List.forall_mem_cons, List.not_mem_nil, false_implies, implies_true, and_true]
  exact ⟨hstart.fits, hstop.fits⟩

theorem UserLimits.keeps (l : UserLimits) : Keeps (n + 3) UserLimits.ofJson? l.toJson l := by
  have hsources := keepsField_unlessEmpty fun s (_ : s ∈ l.sources) => keeps_text (n + 1) s
  have hwindows := keepsField_unlessEmpty fun w (_ : w ∈ l.windows) => Window.keeps (n := n) w
  have hlocale := keepsField_text (n + 2) l.locale
  refine keeps_record (by decide) (by rfl) ?_ ?_
  · simp only [List.forall_mem_cons, List.not_mem_nil, false_implies, implies_true, and_true]
    exact ⟨hsources.fits, hwindows.fits, hlocale.fits⟩
  · simp only [List.map_cons, List.map_nil, ↓hsources.bind_get, ↓hwindows.bind_get,
      ↓hlocale.bind_get]
    rfl

/-! ## Users -/

theorem UserSpec.keeps {s : UserSpec} (hexact : ∀ p ∈ s.permissions, ∀ d ∈ p.expiry?, d.IsExact) :
    Keeps (n + 4) UserSpec.ofJson? s.toJson s := by
  have haccount := (keeps_text (n + 3) s.accountName).required
  have hpermissions := keepsField_optional fun p hp => Permissions.keeps (n := n) (hexact p hp)
  have hlimits := keepsField_optional fun l (_ : l ∈ s.userLimits) => UserLimits.keeps (n := n) l
  have hnats := keepsField_optional fun l (_ : l ∈ s.natsLimits) =>
    TrafficLimits.keeps (n := n + 2) l
  refine keeps_record (by decide) (by rfl) ?_ ?_
  · simp only [List.forall_mem_cons, List.not_mem_nil, false_implies, implies_true, and_true]
    exact ⟨haccount.fits, hpermissions.fits, hlimits.fits, hnats.fits⟩
  · simp only [List.map_cons, List.map_nil, ↓haccount.bind_get, ↓hpermissions.bind_get,
      ↓hlimits.bind_get, ↓hnats.bind_get]
    rfl

theorem UserView.keeps {v : UserView} (hexact : ∀ d ∈ v.permissions.expiry?, d.IsExact) :
    Keeps (n + 4) UserView.ofJson? v.toJson v := by
  have haccount := (keeps_text (n + 3) v.accountName).required
  have hpermissions := (Permissions.keeps (n := n) hexact).required
  have hlimits := (UserLimits.keeps (n := n) v.userLimits).required
  have hnats := (TrafficLimits.keeps (n := n + 2) v.natsLimits).required
  refine keeps_record (by decide) (by rfl) ?_ ?_
  · simp only [List.forall_mem_cons, List.not_mem_nil, false_implies, implies_true, and_true]
    exact ⟨haccount.fits, hpermissions.fits, hlimits.fits, hnats.fits⟩
  · simp only [List.map_cons, List.map_nil, ↓haccount.bind_get, ↓hpermissions.bind_get,
      ↓hlimits.bind_get, ↓hnats.bind_get]
    rfl

theorem UserStatus.keeps {s : UserStatus}
    (hexact : ∀ v ∈ s.claims, ∀ d ∈ v.permissions.expiry?, d.IsExact)
    (htime : ∀ t ∈ s.reconciledAt, t.IsPlain) :
    Keeps (n + 5) UserStatus.ofJson? s.toJson s := by
  have hclaims := keepsField_optional fun v hv => UserView.keeps (n := n) (hexact v hv)
  have hready := (keeps_bool (n + 4) s.ready).defaulted false
  have hmessage := keepsField_text (n + 4) s.message
  have hreconciled := keepsField_optional fun t ht => keeps_timestamp (n + 4) (htime t ht)
  refine keeps_record (by decide) (by rfl) ?_ ?_
  · simp only [List.forall_mem_cons, List.not_mem_nil, false_implies, implies_true, and_true]
    exact ⟨hclaims.fits, hready.fits, hmessage.fits, hreconciled.fits⟩
  · simp only [List.map_cons, List.map_nil, ↓hclaims.bind_get, ↓hready.bind_get,
      ↓hmessage.bind_get, ↓hreconciled.bind_get]
    rfl

namespace User

/-- The durations in a user: those of its declared permissions and of those in its status. -/
def durations (u : User) : List Duration :=
  (u.spec.permissions.toList ++ u.status.claims.toList.map (·.permissions)).filterMap
    (·.expiry?)

/-- The points in time in a user. -/
def times (u : User) : List Time.Timestamp :=
  u.metadata.deletion.toList ++ u.status.reconciledAt.toList

theorem keeps {u : User} (hexact : ∀ d ∈ u.durations, d.IsExact)
    (htime : ∀ t ∈ u.times, t.IsPlain) : Keeps (n + 6) ofJson? u.toJson u := by
  have hdeclared : ∀ p ∈ u.spec.permissions, ∀ d ∈ p.expiry?, d.IsExact := fun p hp d hd =>
    hexact d (List.mem_filterMap.mpr
      ⟨p, List.mem_append_left _ (Option.mem_toList.mpr hp), hd⟩)
  have hreported : ∀ v ∈ u.status.claims, ∀ d ∈ v.permissions.expiry?, d.IsExact := fun v hv d hd =>
    hexact d (List.mem_filterMap.mpr
      ⟨_, List.mem_append_right _ (List.mem_map_of_mem (Option.mem_toList.mpr hv)), hd⟩)
  have hmetadata := (Metadata.keeps (n := n + 3) (m := u.metadata) fun t ht =>
    htime t (List.mem_append_left _ (Option.mem_toList.mpr ht))).required
  have hspec := (UserSpec.keeps (n := n + 1) hdeclared).required
  have hstatus := (UserStatus.keeps (n := n) hreported fun t ht =>
    htime t (List.mem_append_right _ (Option.mem_toList.mpr ht))).defaulted {}
  unfold toJson members
  refine keeps_record (by decide) (by rfl) ?_ ?_
  · simp only [List.forall_mem_cons, List.not_mem_nil, false_implies, implies_true, and_true]
    exact ⟨hmetadata.fits, hspec.fits, hstatus.fits⟩
  · simp only [List.map_cons, List.map_nil, ↓hmetadata.bind_get, ↓hspec.bind_get, ↓hstatus.bind_get]
    rfl

end User

end CredentialEngine
