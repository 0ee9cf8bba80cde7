import CredentialEngine.Proofs.Keyring.Steps

/-!
# Repeated writes

Writes to any locations in any order: at each location they add up. The first one makes the record
and its owner, each one adds its labels, and the last one gives the data. A record that is not
managed is never touched.
-/
namespace CredentialEngine.Keyring

open Secret

/-- A write of a record, as the keyring is asked for it. -/
structure Write where
  owner : Option Owner
  location : Location
  labels : Labels
  data : Dict String

/-- The answers to writes one after the other, and what they leave. -/
def writeAll : List Write → Table → List (Except Halt Unit) × Table
  | [], t => ([], t)
  | w :: ws, t =>
    match put w.owner w.location w.labels w.data t with
    | .ok _ t => (.ok () :: (writeAll ws t).1, (writeAll ws t).2)
    | .error halt t => (.error halt :: (writeAll ws t).1, (writeAll ws t).2)

/-- Labels together with those of writes, of which the later ones win. -/
def gathered (labels : Labels) (ws : List Write) : Labels :=
  Dict.ofList (labels.entries ++ ws.flatMap (·.labels.entries))

/-- What the writes to a location, in order, make of what stood there. -/
inductive Accumulates (loc : Location) : List Write → Option Record → Option Record → Prop
  | untouched (before : Option Record) : Accumulates loc [] before before
  | created (w : Write) (ws : List Write) : Accumulates loc (w :: ws) none (some {
      space := loc.space
      name := loc.name
      labels := (gathered .empty (w :: ws)).insert Label.managed Label.managedValue
      owner := w.owner
      data := (ws.getLastD w).data })
  | extended {r : Record} (managed : r.isManaged = true) (w : Write) (ws : List Write) :
    Accumulates loc (w :: ws) (some r) (some { r with
      labels := gathered r.labels (w :: ws)
      data := (ws.getLastD w).data })
  | refused {r : Record} (foreign : r.isManaged = false) (w : Write) (ws : List Write) :
    Accumulates loc (w :: ws) (some r) (some r)

namespace Write

/-- The write leaves the mark of ownership to the keyring. -/
def Unmarked (w : Write) : Prop :=
  w.labels.get? Label.managed = none

/-- The answer to a write, by the record at its location. -/
def answer (w : Write) : Option Record → Except Halt Unit
  | some r => if r.isManaged then .ok () else .error (.failed (.notManaged w.location))
  | none => .ok ()

/-- What a write makes of the record at its location. -/
def revise (w : Write) : Option Record → Option Record
  | some r => if r.isManaged then some (revised r w.labels w.data) else some r
  | none => some (fresh w.owner w.location w.labels w.data)

end Write

/-! ## One write -/

/-- A write answers and leaves what the record at its location says, and no other place changes. -/
theorem writeAll_cons (w : Write) (ws : List Write) (t : Table) :
    ∃ t', writeAll (w :: ws) t =
        (w.answer (t.find? w.location) :: (writeAll ws t').1, (writeAll ws t').2) ∧
      ∀ loc, t'.find? loc = if w.location = loc then w.revise (t.find? loc) else t.find? loc := by
  rw [writeAll, put_eq]
  cases hf : t.find? w.location with
  | none =>
    refine ⟨_, rfl, fun loc => ?_⟩
    rw [Table.find?_put]
    refine ite_congr rfl (fun hl => ?_) fun _ => rfl
    rw [← hl, hf]
    rfl
  | some r =>
    have hlocation := (Table.found hf).2
    by_cases hm : r.isManaged = true
    · simp only [hm, if_true, Write.answer]
      refine ⟨_, rfl, fun loc => ?_⟩
      rw [Table.find?_put]
      have hsame : (revised r w.labels w.data).location = w.location := hlocation
      rw [hsame]
      refine ite_congr rfl (fun hl => ?_) fun _ => rfl
      rw [← hl, hf, Write.revise, if_pos hm]
    · simp only [hm, Write.answer]
      refine ⟨t, rfl, fun loc => ?_⟩
      split
      · rename_i hl
        rw [← hl, hf, Write.revise, if_neg hm]
      · rfl

/-- A write changes the answer to no other one. -/
theorem answer_revise {w : Write} (hw : w.Unmarked) (w' : Write) (before : Option Record) :
    w'.answer (w.revise before) = w'.answer before := by
  cases before with
  | none =>
    rw [Write.revise, Write.answer, isManaged_fresh]
    rfl
  | some r =>
    rw [Write.revise]
    split
    · rw [Write.answer, Write.answer, isManaged_revised hw]
    · rfl

/-! ## All writes -/

/-- The writes are answered by the records that stood at their locations before the first of them,
and each location keeps what the writes to it, in order, make of its record. -/
theorem writeAll_eq {ws : List Write} (hws : ∀ w ∈ ws, w.Unmarked) (t : Table) :
    (writeAll ws t).1 = ws.map (fun w => w.answer (t.find? w.location)) ∧
      ∀ loc, (writeAll ws t).2.find? loc =
        (ws.filter (·.location = loc)).foldl (fun r w => w.revise r) (t.find? loc) := by
  induction ws generalizing t with
  | nil => exact ⟨rfl, fun _ => rfl⟩
  | cons w ws ih =>
    rw [List.forall_mem_cons] at hws
    obtain ⟨t', heq, hfind⟩ := writeAll_cons w ws t
    obtain ⟨hanswers, hleft⟩ := ih hws.2 t'
    rw [heq]
    constructor
    · rw [hanswers, List.map_cons]
      refine congrArg (_ :: ·) (List.map_congr_left fun w' _ => ?_)
      rw [hfind]
      split
      · exact answer_revise hws.1 w' _
      · rfl
    · intro loc
      rw [hleft, hfind, List.filter_cons]
      by_cases hl : w.location = loc
      · rw [if_pos hl, if_pos (decide_eq_true hl), List.foldl_cons]
      · rw [if_neg hl, if_neg (by rwa [decide_eq_true_eq])]

theorem gathered_nil (l : Labels) : gathered l [] = l := by
  rw [gathered, List.flatMap_nil, List.append_nil, Dict.ofList_entries]

theorem gathered_cons (l : Labels) (w : Write) (ws : List Write) :
    gathered l (w :: ws) = gathered (l.overlay w.labels) ws := by
  rw [gathered, gathered, List.flatMap_cons, Dict.ofList_entries_append, List.foldl_append,
    Dict.ofList_entries_append]
  rfl

theorem gathered_insert {ws : List Write} (hws : ∀ w ∈ ws, w.Unmarked) (l : Labels) (v : String) :
    gathered (l.insert Label.managed v) ws = (gathered l ws).insert Label.managed v := by
  induction ws generalizing l with
  | nil => rw [gathered_nil, gathered_nil]
  | cons w ws ih =>
    rw [List.forall_mem_cons] at hws
    rw [gathered_cons, gathered_cons, Dict.overlay_insert hws.1, ih hws.2]

theorem foldl_revise_foreign {r : Record} (hr : r.isManaged = false) (ws : List Write) :
    ws.foldl (fun r w => w.revise r) (some r) = some r := by
  induction ws with
  | nil => rfl
  | cons w ws ih =>
    have hstep : w.revise (some r) = some r := by
      rw [Write.revise, hr]
      rfl
    rw [List.foldl_cons, hstep, ih]

theorem foldl_revise_managed {r : Record} (hr : r.isManaged = true) {w : Write} {ws : List Write}
    (hws : ∀ w' ∈ w :: ws, w'.Unmarked) :
    (w :: ws).foldl (fun r w => w.revise r) (some r) = some { r with
      labels := gathered r.labels (w :: ws)
      data := (ws.getLastD w).data } := by
  have hstep : w.revise (some r) = some (revised r w.labels w.data) := if_pos hr
  induction ws generalizing r w with
  | nil =>
    rw [List.foldl_cons, hstep, gathered_cons, gathered_nil]
    rfl
  | cons w' ws ih =>
    rw [List.forall_mem_cons] at hws
    have hmanaged : (revised r w.labels w.data).isManaged = true :=
      (isManaged_revised hws.1 r w.data).trans hr
    rw [List.foldl_cons, hstep, ih hmanaged hws.2 (if_pos hmanaged), gathered_cons r.labels,
      List.getLastD_cons]
    rfl

theorem foldl_revise_none {w : Write} {ws : List Write} (hws : ∀ w' ∈ w :: ws, w'.Unmarked) :
    (w :: ws).foldl (fun r w => w.revise r) none = some {
      space := w.location.space
      name := w.location.name
      labels := (gathered .empty (w :: ws)).insert Label.managed Label.managedValue
      owner := w.owner
      data := (ws.getLastD w).data } := by
  have hstep : w.revise none = some (fresh w.owner w.location w.labels w.data) := rfl
  rw [List.foldl_cons, hstep, gathered_cons, Dict.empty_overlay]
  cases ws with
  | nil =>
    rw [gathered_nil]
    rfl
  | cons w' ws =>
    rw [List.forall_mem_cons] at hws
    rw [foldl_revise_managed (isManaged_fresh _ _ _ _) hws.2, ← gathered_insert hws.2,
      List.getLastD_cons]
    rfl

/-- Whatever a table holds and in whatever order writes come to whatever locations, unless one of
them sets the mark of ownership itself: a location without a record gets one, of the first owner,
with the labels of all writes and the data of the last; a managed record keeps its owner and gets
the labels and the data; an unmanaged one stays as it is, and each write to it fails. Where nothing
is written nothing changes. -/
theorem writeAll_accumulates (t : Table) (ws : List Write) (hws : ∀ w ∈ ws, w.Unmarked) :
    (writeAll ws t).1 = ws.map (fun w => w.answer (t.find? w.location)) ∧
      ∀ loc, Accumulates loc (ws.filter (·.location = loc)) (t.find? loc)
        ((writeAll ws t).2.find? loc) := by
  obtain ⟨hanswers, hleft⟩ := writeAll_eq hws t
  refine ⟨hanswers, fun loc => ?_⟩
  rw [hleft]
  have hhere : ∀ w ∈ ws.filter (·.location = loc), w.Unmarked ∧ w.location = loc := by
    intro w hw
    obtain ⟨hmem, hl⟩ := List.mem_filter.mp hw
    exact ⟨hws w hmem, of_decide_eq_true hl⟩
  cases hfilter : ws.filter (·.location = loc) with
  | nil => exact .untouched _
  | cons w ws =>
    rw [hfilter] at hhere
    have hunmarked : ∀ w' ∈ w :: ws, w'.Unmarked := fun w' hw' => (hhere w' hw').1
    cases t.find? loc with
    | none =>
      rw [foldl_revise_none hunmarked, (hhere w List.mem_cons_self).2]
      exact .created w ws
    | some r =>
      cases hr : r.isManaged with
      | true =>
        rw [foldl_revise_managed hr hunmarked]
        exact .extended hr w ws
      | false =>
        rw [foldl_revise_foreign hr]
        exact .refused hr w ws

/-- A managed record and one that somebody else made. -/
def mixedTable : Table where
  records := [
    { space := "s", name := "ours", labels := Dict.ofList [(Label.managed, Label.managedValue)] },
    { space := "s", name := "theirs", data := Dict.ofList [("k", "v")] }]
  distinct := by decide +kernel

/-- Writes to both records of the table and twice to a location without one. -/
def mixedWrites : List Write := [
  ⟨none, ⟨"s", "new"⟩, Dict.ofList [("a", "1"), ("b", "1")], .empty⟩,
  ⟨none, ⟨"s", "theirs"⟩, Dict.ofList [("a", "1")], .empty⟩,
  ⟨none, ⟨"s", "ours"⟩, Dict.ofList [("a", "1")], .empty⟩,
  ⟨none, ⟨"s", "new"⟩, Dict.ofList [("b", "2")], Dict.ofList [("k", "v")]⟩]

theorem writeAll_accumulates_mixed :
    (writeAll mixedWrites mixedTable).1 =
        mixedWrites.map (fun w => w.answer (mixedTable.find? w.location)) ∧
      ∀ loc, Accumulates loc (mixedWrites.filter (·.location = loc)) (mixedTable.find? loc)
        ((writeAll mixedWrites mixedTable).2.find? loc) :=
  writeAll_accumulates mixedTable mixedWrites (by unfold Write.Unmarked; decide +kernel)

end CredentialEngine.Keyring
