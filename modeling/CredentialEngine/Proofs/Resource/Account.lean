import CredentialEngine.Proofs.Json.Keeping
import CredentialEngine.Proofs.Time.Duration
import CredentialEngine.Proofs.Time.Timestamp
import CredentialEngine.Resource.Account

/-!
# The documents of accounts

The document of an account keeps the account, if every duration in it is below `2 ^ 53` nanoseconds
and its points in time lie in years of four digits. Whatever is left out when unset or empty is read
back from its absence.
-/
namespace CredentialEngine

open Json

variable {n : Nat} (intake : Intake)

/-! ## Limits -/

/-- Limits that may be unset. -/
theorem keepsField_int64 (n : Nat) (o : Option Int64) :
    KeepsField n (optional asInt64) (o.map ofInt64) o :=
  keepsField_optional fun i _ => keeps_int64 n i

theorem keepsField_text (n : Nat) (o : Option String) :
    KeepsField n (optional asText) (o.map .str) o :=
  keepsField_optional fun s _ => keeps_text n s

theorem keepsField_bool (n : Nat) (o : Option Bool) :
    KeepsField n (optional asBool) (o.map .bool) o :=
  keepsField_optional fun b _ => keeps_bool n b

theorem AccountLimits.keeps (l : AccountLimits) :
    Keeps (n + 1) AccountLimits.ofJson? l.toJson l := by
  refine keeps_record (by decide) (by rfl) ?_ ?_
  · simp only [List.forall_mem_cons, List.not_mem_nil, false_implies, implies_true, and_true]
    exact ⟨(keepsField_int64 n l.imports).fits, (keepsField_int64 n l.exports).fits,
      (keepsField_bool n l.wildcardExports).fits, (keepsField_int64 n l.conn).fits,
      (keepsField_int64 n l.leaf).fits⟩
  · simp only [List.map_cons, List.map_nil, ↓(keepsField_int64 n _).bind_get,
      ↓(keepsField_bool n _).bind_get]
    rfl

theorem TrafficLimits.keeps (l : TrafficLimits) :
    Keeps (n + 1) TrafficLimits.ofJson? l.toJson l := by
  refine keeps_record (by decide) (by rfl) ?_ ?_
  · simp only [List.forall_mem_cons, List.not_mem_nil, false_implies, implies_true, and_true]
    exact ⟨(keepsField_int64 n l.subs).fits, (keepsField_int64 n l.data).fits,
      (keepsField_int64 n l.payload).fits⟩
  · simp only [List.map_cons, List.map_nil, ↓(keepsField_int64 n _).bind_get]
    rfl

theorem StreamLimits.keeps (l : StreamLimits) :
    Keeps (n + 1) StreamLimits.ofJson? l.toJson l := by
  refine keeps_record (by decide) (by rfl) ?_ ?_
  · simp only [List.forall_mem_cons, List.not_mem_nil, false_implies, implies_true, and_true]
    exact ⟨(keepsField_int64 n l.memStorage).fits, (keepsField_int64 n l.diskStorage).fits,
      (keepsField_int64 n l.streams).fits, (keepsField_int64 n l.consumer).fits,
      (keepsField_int64 n l.maxAckPending).fits, (keepsField_int64 n l.memMaxStreamBytes).fits,
      (keepsField_int64 n l.diskMaxStreamBytes).fits, (keepsField_bool n l.maxBytesRequired).fits⟩
  · simp only [List.map_cons, List.map_nil, ↓(keepsField_int64 n _).bind_get,
      ↓(keepsField_bool n _).bind_get]
    rfl

/-! ## Metadata -/

theorem keeps_timestamp (n : Nat) {t : Time.Timestamp} (h : t.IsPlain) :
    Keeps n asTimestamp (ofTimestamp t) t where
  fits := (keeps_text n t.format).fits
  read_eq := by
    rw [ofTimestamp, asTimestamp, asText, Option.bind_some, Time.Timestamp.parse?_format h]
  ne_null := nofun

theorem Metadata.keeps {m : Metadata} (htime : ∀ t ∈ m.deletion, t.IsPlain) :
    Keeps (n + 2) Metadata.ofJson? m.toJson m := by
  have hname := (keeps_text (n + 1) m.name).required
  have hspace := (keeps_text (n + 1) m.space).defaulted ""
  have huid := (keeps_text (n + 1) m.uid).defaulted ""
  have hlabels := keepsField_unlessEmptyDict fun e (_ : e ∈ m.labels.entries) => keeps_text n e.2
  have hdeletion := keepsField_optional fun t ht => keeps_timestamp (n + 1) (htime t ht)
  refine keeps_record (by decide) (by rfl) ?_ ?_
  · simp only [List.forall_mem_cons, List.not_mem_nil, false_implies, implies_true, and_true]
    exact ⟨hname.fits, hspace.fits, huid.fits, hlabels.fits, hdeletion.fits⟩
  · simp only [List.map_cons, List.map_nil, ↓hname.bind_get, ↓hspace.bind_get, ↓huid.bind_get,
      ↓hlabels.bind_get, ↓hdeletion.bind_get]
    rfl

/-! ## Exports and imports -/

theorem Flow.keeps (n : Nat) (f : Flow) : Keeps n (Flow.ofJson? intake) f.toJson f where
  fits := (keeps_text n f.text).fits
  read_eq := by cases f <;> rfl
  ne_null := nofun

theorem ReplyKind.keeps (n : Nat) (r : ReplyKind) :
    Keeps n (ReplyKind.ofJson? intake) r.toJson r where
  fits := (keeps_text n r.text).fits
  read_eq := by cases r <;> rfl
  ne_null := nofun

theorem keeps_duration (n : Nat) {d : Duration} (h : d.IsExact) :
    Keeps n asDuration (ofDuration d) d where
  fits := (keeps_text n d.format).fits
  read_eq := by
    rw [ofDuration, asDuration, asText]
    simp only [Duration.parse_format h]
  ne_null := nofun

theorem LatencyReport.keeps (l : LatencyReport) :
    Keeps (n + 1) LatencyReport.ofJson? l.toJson l := by
  have hsampling := (keeps_int64 n l.sampling).required
  have hresults := (keeps_text n l.results).required
  refine keeps_record (by decide) (by rfl) ?_ ?_
  · simp only [List.forall_mem_cons, List.not_mem_nil, false_implies, implies_true, and_true]
    exact ⟨hsampling.fits, hresults.fits⟩
  · simp only [List.map_cons, List.map_nil, ↓hsampling.bind_get, ↓hresults.bind_get]
    rfl

theorem Export.keeps {e : Export} (hexact : ∀ d ∈ e.replyThreshold, d.IsExact) :
    Keeps (n + 2) (Export.ofJson? intake) e.toJson e := by
  have hname := (keeps_text (n + 1) e.name).defaulted ""
  have hsubject := (keeps_text (n + 1) e.subject).required
  have hflow := (Flow.keeps intake (n + 1) e.flow).defaulted .stream
  have hflag := fun b => (keeps_bool (n + 1) b).defaulted false
  have hrevocations := keepsField_unlessEmptyDict fun r (_ : r ∈ e.revocations.entries) =>
    keeps_int64 n r.2
  have hkind := keepsField_optional fun r (_ : r ∈ e.replyKind) => ReplyKind.keeps intake (n + 1) r
  have hthreshold := keepsField_optional fun d hd => keeps_duration (n + 1) (hexact d hd)
  have hlatency := keepsField_optional fun l (_ : l ∈ e.latency) => LatencyReport.keeps (n := n) l
  have hposition := (keeps_uint32 (n + 1) e.accountTokenPosition).defaulted 0
  refine keeps_record (by decide) (by rfl) ?_ ?_
  · simp only [List.forall_mem_cons, List.not_mem_nil, false_implies, implies_true, and_true]
    exact ⟨hname.fits, hsubject.fits, hflow.fits, (hflag e.tokenRequired).fits, hrevocations.fits,
      hkind.fits, hthreshold.fits, hlatency.fits, hposition.fits, (hflag e.advertise).fits,
      (hflag e.allowTrace).fits⟩
  · simp only [List.map_cons, List.map_nil, ↓hname.bind_get, ↓hsubject.bind_get, ↓hflow.bind_get,
      ↓(hflag _).bind_get, ↓hrevocations.bind_get, ↓hkind.bind_get, ↓hthreshold.bind_get,
      ↓hlatency.bind_get, ↓hposition.bind_get]
    rfl

theorem Reference.keeps (r : Reference) : Keeps (n + 1) Reference.ofJson? r.toJson r := by
  have hname := (keeps_text n r.name).required
  refine keeps_record (by decide) (by rfl) ?_ ?_
  · simp only [List.forall_mem_cons, List.not_mem_nil, false_implies, implies_true, and_true]
    exact ⟨hname.fits, (keepsField_text n r.space).fits⟩
  · simp only [List.map_cons, List.map_nil, ↓hname.bind_get, ↓(keepsField_text n _).bind_get]
    rfl

theorem Import.keeps (i : Import) : Keeps (n + 2) (Import.ofJson? intake) i.toJson i := by
  have hsource := keepsField_optional fun r (_ : r ∈ i.source) => Reference.keeps (n := n) r
  have htext := keepsField_text (n + 1)
  have hname := (keeps_text (n + 1) i.name).defaulted ""
  have hsubject := (keeps_text (n + 1) i.subject).required
  have hflow := (Flow.keeps intake (n + 1) i.flow).defaulted .stream
  have hflag := fun b => (keeps_bool (n + 1) b).defaulted false
  refine keeps_record (by decide) (by rfl) ?_ ?_
  · simp only [List.forall_mem_cons, List.not_mem_nil, false_implies, implies_true, and_true]
    exact ⟨hsource.fits, (htext i.account).fits, hname.fits, hsubject.fits,
      (htext i.localSubject).fits, hflow.fits, (htext i.token).fits, (hflag i.share).fits,
      (hflag i.allowTrace).fits⟩
  · simp only [List.map_cons, List.map_nil, ↓hsource.bind_get, ↓(htext _).bind_get,
      ↓hname.bind_get, ↓hsubject.bind_get, ↓hflow.bind_get, ↓(hflag _).bind_get]
    rfl

/-! ## Accounts -/

/-- How long answers may take that are given through a list of exports. -/
def replyThresholds (exports : List Export) : List Duration :=
  exports.filterMap (·.replyThreshold)

theorem exact_of_thresholds {exports : List Export}
    (hexact : ∀ d ∈ replyThresholds exports, d.IsExact) :
    ∀ e ∈ exports, ∀ d ∈ e.replyThreshold, d.IsExact :=
  fun e he d hd => hexact d (List.mem_filterMap.mpr ⟨e, he, hd⟩)

theorem AccountSpec.keeps {s : AccountSpec} (hexact : ∀ d ∈ replyThresholds s.exports, d.IsExact) :
    Keeps (n + 4) (AccountSpec.ofJson? intake) s.toJson s := by
  have haccount := keepsField_optional fun l (_ : l ∈ s.accountLimits) =>
    AccountLimits.keeps (n := n + 2) l
  have hnats := keepsField_optional fun l (_ : l ∈ s.natsLimits) =>
    TrafficLimits.keeps (n := n + 2) l
  have hstream := keepsField_optional fun l (_ : l ∈ s.jetStreamLimits) =>
    StreamLimits.keeps (n := n + 2) l
  have hexports := keepsField_unlessEmpty fun e he =>
    Export.keeps intake (n := n) (exact_of_thresholds hexact e he)
  have himports := keepsField_unlessEmpty fun i (_ : i ∈ s.imports) => Import.keeps intake (n := n) i
  have hcluster := keepsField_optional fun r (_ : r ∈ s.cluster) => Reference.keeps (n := n + 2) r
  refine keeps_record (by decide) (by rfl) ?_ ?_
  · simp only [List.forall_mem_cons, List.not_mem_nil, false_implies, implies_true, and_true]
    exact ⟨haccount.fits, hnats.fits, hstream.fits, hexports.fits, himports.fits, hcluster.fits⟩
  · simp only [List.map_cons, List.map_nil, ↓haccount.bind_get, ↓hnats.bind_get, ↓hstream.bind_get,
      ↓hexports.bind_get, ↓himports.bind_get, ↓hcluster.bind_get]
    rfl

theorem AccountView.keeps {v : AccountView} (hexact : ∀ d ∈ replyThresholds v.exports, d.IsExact) :
    Keeps (n + 4) (AccountView.ofJson? intake) v.toJson v := by
  have haccount := (AccountLimits.keeps (n := n + 2) v.accountLimits).required
  have hnats := (TrafficLimits.keeps (n := n + 2) v.natsLimits).required
  have hstream := (StreamLimits.keeps (n := n + 2) v.jetStreamLimits).required
  have hexports := (keeps_list fun e he =>
    Export.keeps intake (n := n) (exact_of_thresholds hexact e he)).defaulted []
  have himports := (keeps_list fun i (_ : i ∈ v.imports) =>
    Import.keeps intake (n := n) i).defaulted []
  have hkeys := (keeps_list fun s (_ : s ∈ v.signingKeys) => keeps_text (n + 2) s).defaulted []
  refine keeps_record (by decide) (by rfl) ?_ ?_
  · simp only [List.forall_mem_cons, List.not_mem_nil, false_implies, implies_true, and_true]
    exact ⟨haccount.fits, hnats.fits, hstream.fits, hexports.fits, himports.fits, hkeys.fits⟩
  · simp only [List.map_cons, List.map_nil, ↓haccount.bind_get, ↓hnats.bind_get, ↓hstream.bind_get,
      ↓hexports.bind_get, ↓himports.bind_get, ↓hkeys.bind_get]
    rfl

theorem AccountStatus.keeps {s : AccountStatus}
    (hexact : ∀ v ∈ s.claims, ∀ d ∈ replyThresholds v.exports, d.IsExact)
    (htime : ∀ t ∈ s.reconciledAt, t.IsPlain) :
    Keeps (n + 5) (AccountStatus.ofJson? intake) s.toJson s := by
  have hclaims := keepsField_optional fun v hv => AccountView.keeps intake (n := n) (hexact v hv)
  have htext := keepsField_text (n + 4)
  have hready := (keeps_bool (n + 4) s.ready).defaulted false
  have hreconciled := keepsField_optional fun t ht => keeps_timestamp (n + 4) (htime t ht)
  refine keeps_record (by decide) (by rfl) ?_ ?_
  · simp only [List.forall_mem_cons, List.not_mem_nil, false_implies, implies_true, and_true]
    exact ⟨hclaims.fits, (htext s.signingKey).fits, hready.fits, (htext s.message).fits,
      hreconciled.fits⟩
  · simp only [List.map_cons, List.map_nil, ↓hclaims.bind_get, ↓(htext _).bind_get,
      ↓hready.bind_get, ↓hreconciled.bind_get]
    rfl

namespace Account

/-- The durations in an account: those of its declared exports and of those in its status. -/
def durations (a : Account) : List Duration :=
  replyThresholds a.spec.exports ++ a.status.claims.elim [] fun v => replyThresholds v.exports

/-- The points in time in an account. -/
def times (a : Account) : List Time.Timestamp :=
  a.metadata.deletion.toList ++ a.status.reconciledAt.toList

theorem keeps {a : Account} (hexact : ∀ d ∈ a.durations, d.IsExact)
    (htime : ∀ t ∈ a.times, t.IsPlain) : Keeps (n + 6) (ofJson? intake) a.toJson a := by
  have hmetadata := (Metadata.keeps (n := n + 3) (m := a.metadata) fun t ht =>
    htime t (List.mem_append_left _ (Option.mem_toList.mpr ht))).required
  have hspec := (AccountSpec.keeps intake (n := n + 1) (s := a.spec) fun d hd =>
    hexact d (List.mem_append_left _ hd)).defaulted {}
  have hstatus := (AccountStatus.keeps intake (n := n) (s := a.status)
    (fun v hv d hd => hexact d (List.mem_append_right _ (by rw [Option.mem_def.mp hv]; exact hd)))
    fun t ht => htime t (List.mem_append_right _ (Option.mem_toList.mpr ht))).defaulted {}
  unfold toJson members
  refine keeps_record (by decide) (by rfl) ?_ ?_
  · simp only [List.forall_mem_cons, List.not_mem_nil, false_implies, implies_true, and_true]
    exact ⟨hmetadata.fits, hspec.fits, hstatus.fits⟩
  · simp only [List.map_cons, List.map_nil, ↓hmetadata.bind_get, ↓hspec.bind_get, ↓hstatus.bind_get]
    rfl

end Account

end CredentialEngine
