import CredentialEngine.Claims.User
import CredentialEngine.Proofs.Net.Network
import CredentialEngine.Proofs.Time.Clock

/-!
# Where and when users may connect

The claims of a user name networks to connect from and windows to connect in. A build checks every
one of them, fails with all that do not pass, and otherwise signs the texts as they were declared.
-/
namespace CredentialEngine.Claims

/-- The constraints that a specification declares. -/
def constraints (spec : UserSpec) : UserLimits :=
  spec.userLimits.getD {}

/-- One issue for each entry that does not pass, in the order of the entries. -/
inductive Listed {α : Type} (Passes : α → Prop) (issue : α → Issue) : List α → List Issue → Prop
  | nil : Listed Passes issue [] []
  | passed {a : α} {as : List α} {issues : List Issue} (ha : Passes a)
      (has : Listed Passes issue as issues) : Listed Passes issue (a :: as) issues
  | failed {a : α} {as : List α} {issues : List Issue} (ha : ¬ Passes a)
      (has : Listed Passes issue as issues) : Listed Passes issue (a :: as) (issue a :: issues)

/-- Both ends of a window pass. -/
def PassingWindow (w : Window) : Prop :=
  Time.isTimeOfDay w.start = true ∧ Time.isTimeOfDay w.stop = true

/-! ## Issues -/

section Issues

variable {α : Type} {Passes : α → Prop} {issue : α → Issue} {as : List α} {issues : List Issue}

theorem listed_filter {check : α → Bool} (hcheck : ∀ a, check a = true ↔ Passes a)
    (issue : α → Issue) (as : List α) :
    Listed Passes issue as ((as.filter fun a => !check a).map issue) := by
  induction as with
  | nil => exact .nil
  | cons a as ih =>
    cases ha : check a with
    | true =>
      rw [List.filter_cons_of_neg (by rw [ha]; decide)]
      exact .passed ((hcheck a).mp ha) ih
    | false =>
      rw [List.filter_cons_of_pos (by rw [ha]; decide), List.map_cons]
      exact .failed (fun h => Bool.false_ne_true (ha.symm.trans ((hcheck a).mpr h))) ih

theorem Listed.eq_nil_iff (h : Listed Passes issue as issues) :
    issues = [] ↔ ∀ a ∈ as, Passes a := by
  induction h with
  | nil => simp
  | passed ha _ ih => simp [ih, ha]
  | failed ha _ _ => simp [ha]

end Issues

theorem isWindow_iff (w : Window) : isWindow w = true ↔ PassingWindow w := by
  rw [isWindow, Bool.and_eq_true, PassingWindow]

/-- The issues of constraints are those of the networks and then those of the windows. -/
theorem exists_listed (l : UserLimits) :
    ∃ is js, Listed (Net.isNetwork · = true) .invalidSource l.sources is ∧
      Listed PassingWindow (fun w => .invalidWindow w.start w.stop) l.windows js ∧
      userIssues l = is ++ js :=
  ⟨_, _, listed_filter (fun _ => Iff.rfl) _ _, listed_filter isWindow_iff _ _, rfl⟩

theorem userIssues_eq_nil {l : UserLimits} :
    userIssues l = [] ↔
      (∀ s ∈ l.sources, Net.isNetwork s = true) ∧ ∀ w ∈ l.windows, PassingWindow w := by
  obtain ⟨is, js, his, hjs, hissues⟩ := exists_listed l
  rw [hissues, List.append_eq_nil_iff, his.eq_nil_iff, hjs.eq_nil_iff]

/-! ## Builds -/

section Builds

variable (name id accountId : String) (spec : UserSpec)

theorem buildUser_eq_error {error : ClaimsError} :
    buildUser name id accountId spec = .error error ↔
      userIssues (constraints spec) ≠ [] ∧ error = .invalid (userIssues (constraints spec)) := by
  simp only [buildUser, constraints]
  split
  · rename_i hnil
    exact ⟨nofun, fun h => absurd hnil h.1⟩
  · rename_i hne
    exact ⟨fun h => ⟨hne, (Except.error.inj h).symm⟩, fun h => h.2 ▸ rfl⟩

theorem exists_buildUser_ok :
    (∃ claims, buildUser name id accountId spec = .ok claims) ↔
      userIssues (constraints spec) = [] := by
  simp only [buildUser, constraints]
  split
  · rename_i hnil
    exact ⟨fun _ => hnil, fun _ => ⟨_, rfl⟩⟩
  · rename_i hne
    exact ⟨nofun, fun h => absurd h hne⟩

/-- What is signed of the constraints are the texts as they were declared. -/
theorem constraints_of_buildUser {claims : UserClaims}
    (h : buildUser name id accountId spec = .ok claims) :
    claims.body.sources = (constraints spec).sources ∧
      claims.body.windows = (constraints spec).windows := by
  simp only [buildUser] at h
  split at h
  · obtain rfl := Except.ok.inj h
    exact ⟨rfl, rfl⟩
  · contradiction

/-- A build fails exactly if a network or an end of a window does not pass. It then fails with one
issue for each network that does not pass and after them one for each window, in the order in which
they are declared, whatever else is declared and whoever is built for. -/
theorem buildUser_reports_all :
    ((∃ error, buildUser name id accountId spec = .error error) ↔
      (∃ s ∈ (constraints spec).sources, Net.isNetwork s = false) ∨
        ∃ w ∈ (constraints spec).windows,
          Time.isTimeOfDay w.start = false ∨ Time.isTimeOfDay w.stop = false) ∧
    (∀ error, buildUser name id accountId spec = .error error →
      ∃ is js,
        Listed (Net.isNetwork · = true) .invalidSource (constraints spec).sources is ∧
        Listed PassingWindow (fun w => .invalidWindow w.start w.stop)
          (constraints spec).windows js ∧
        error = .invalid (is ++ js)) ∧
    ∀ (name' id' accountId' : String) (spec' : UserSpec) (error : ClaimsError),
      (constraints spec').sources = (constraints spec).sources →
      (constraints spec').windows = (constraints spec).windows →
      (buildUser name' id' accountId' spec' = .error error ↔
        buildUser name id accountId spec = .error error) := by
  refine ⟨?_, fun error h => ?_, fun name' id' accountId' spec' error hsources hwindows => ?_⟩
  · have hfails : (∃ error, buildUser name id accountId spec = .error error) ↔
        userIssues (constraints spec) ≠ [] := by
      simp only [buildUser_eq_error, exists_and_left, exists_eq, and_true]
    rw [hfails, Ne, userIssues_eq_nil, not_and_or]
    simp only [PassingWindow, not_forall, not_and_or, exists_prop, Bool.not_eq_true]
  · obtain ⟨-, rfl⟩ := (buildUser_eq_error name id accountId spec).mp h
    obtain ⟨is, js, his, hjs, hissues⟩ := exists_listed (constraints spec)
    exact ⟨is, js, his, hjs, by rw [hissues]⟩
  · have hissues : userIssues (constraints spec') = userIssues (constraints spec) := by
      rw [userIssues, userIssues, hsources, hwindows]
    rw [buildUser_eq_error, buildUser_eq_error, hissues]

example : userIssues {
      sources := ["10.0.0.0/99", "10.0.0.0/8", "10.0.0.0/99"]
      windows := [⟨"8am", "17:00:00"⟩] } =
    [.invalidSource "10.0.0.0/99", .invalidSource "10.0.0.0/99",
      .invalidWindow "8am" "17:00:00"] := by
  decide +kernel

/-- A build accepts exactly the constraints in which every network may have blanks around it and a
plus in it, and every end of a window blanks and one-digit fields. It signs all of them as they are
declared: a network is one as it stands there exactly if it has no blank and no plus, an end of a
window exactly if it has eight characters and no blank. -/
theorem signed_constraints :
    ((∃ claims, buildUser name id accountId spec = .ok claims) ↔
      (∀ s ∈ (constraints spec).sources, Net.IsLooseNetwork s) ∧
        ∀ w ∈ (constraints spec).windows,
          Time.IsLooseClock w.start ∧ Time.IsLooseClock w.stop) ∧
    ∀ claims, buildUser name id accountId spec = .ok claims →
      claims.body.sources = (constraints spec).sources ∧
      claims.body.windows = (constraints spec).windows ∧
      (∀ s ∈ claims.body.sources,
        Net.IsNetworkText s ↔ ∀ c ∈ s.toList, Text.isBlank c = false ∧ c ≠ '+') ∧
      ∀ w ∈ claims.body.windows, ∀ e ∈ [w.start, w.stop],
        Time.IsClock e ↔ e.toList.length = 8 ∧ ∀ c ∈ e.toList, Text.isBlank c = false := by
  have haccepted : (∃ claims, buildUser name id accountId spec = .ok claims) ↔
      (∀ s ∈ (constraints spec).sources, Net.IsLooseNetwork s) ∧
        ∀ w ∈ (constraints spec).windows,
          Time.IsLooseClock w.start ∧ Time.IsLooseClock w.stop := by
    rw [exists_buildUser_ok, userIssues_eq_nil]
    simp only [PassingWindow, Net.isNetwork_iff, Time.isTimeOfDay_iff]
  refine ⟨haccepted, fun claims h => ?_⟩
  obtain ⟨hsources, hwindows⟩ := constraints_of_buildUser name id accountId spec h
  obtain ⟨hnetworks, hclocks⟩ := haccepted.mp ⟨claims, h⟩
  refine ⟨hsources, hwindows, fun s hs => ?_, fun w hw e he => ?_⟩
  · exact (hnetworks s (hsources ▸ hs)).isNetworkText_iff
  · obtain ⟨hstart, hstop⟩ := hclocks w (hwindows ▸ hw)
    rw [List.mem_cons, List.mem_singleton] at he
    rcases he with rfl | rfl
    · exact hstart.isClock_iff
    · exact hstop.isClock_iff

end Builds

/-- A blank before a network, a plus in one, one-digit fields and a blank before a time of day. -/
def looseSpec : UserSpec where
  accountName := "orders"
  userLimits := some {
    sources := [" 10.0.0.0/8", "10.0.0.0/+8"]
    windows := [⟨"8:0:0", " 17:00:00"⟩] }

/-- The loose texts are signed, and none of them is a network or a time of day as it stands
there. -/
theorem loose_constraints_signed :
    ∃ claims, buildUser "alice" "U" "A" looseSpec = .ok claims ∧
      claims.body.sources = [" 10.0.0.0/8", "10.0.0.0/+8"] ∧
      claims.body.windows = [⟨"8:0:0", " 17:00:00"⟩] ∧
      ¬ Net.IsNetworkText " 10.0.0.0/8" ∧ ¬ Net.IsNetworkText "10.0.0.0/+8" ∧
      ¬ Time.IsClock "8:0:0" ∧ ¬ Time.IsClock " 17:00:00" := by
  obtain ⟨claims, h⟩ := (exists_buildUser_ok "alice" "U" "A" looseSpec).mpr (by decide +kernel)
  obtain ⟨hsources, hwindows⟩ := constraints_of_buildUser "alice" "U" "A" looseSpec h
  refine ⟨claims, h, hsources, hwindows, ?_, ?_, ?_, ?_⟩
  · exact fun h => absurd (h.chars ' ' (by decide)).1 (by decide)
  · exact fun h => absurd rfl (h.chars '+' (by decide)).2
  · exact fun h => absurd h.chars.1 (by decide)
  · exact fun h => absurd h.chars.1 (by decide)

end CredentialEngine.Claims
