import CredentialEngine.Proofs.Action
import CredentialEngine.Proofs.Secret.Folder
import CredentialEngine.Secret.Faults

/-!
# What storages owe

A storage that is in order shows a table. An operation that returns answers as the table does and
leaves the table's next state; one that halts leaves what was shown. This is all that the engine
relies on, and every storage here keeps to it: tables themselves, folders whose documents are in
place, and storages with faults or files beside them.
-/
namespace CredentialEngine.Secret

open CredentialEngine.Action

/-- The laws of reading and writing records. -/
class LawfulStorage (σ : Type) [Storage σ] where
  /-- The storage is in order and shows the records of a table. -/
  Shows : σ → Table → Prop
  ends_get {s : σ} {t : Table} (h : Shows s t) (loc : Location) :
    Ends (Storage.get loc) (fun r s' => t.find? loc = some r ∧ Shows s' t) (Shows · t) s
  ends_list {s : σ} {t : Table} (h : Shows s t) (space : String) (selector : Labels) :
    Ends (Storage.list space selector) (fun rs s' => rs = t.selected space selector ∧ Shows s' t)
      (Shows · t) s
  ends_create {s : σ} {t : Table} (h : Shows s t) (r : Record) :
    Ends (Storage.create r) (fun _ s' => t.find? r.location = none ∧ Shows s' (t.put r))
      (Shows · t) s
  ends_update {s : σ} {t : Table} (h : Shows s t) (r : Record) :
    Ends (Storage.update r) (fun _ s' => (t.find? r.location).isSome = true ∧ Shows s' (t.put r))
      (Shows · t) s

export LawfulStorage (Shows ends_get ends_list ends_create ends_update)

/-! ## Tables -/

instance : LawfulStorage Table where
  Shows s t := s = t
  ends_get {s t} h loc := by
    subst h
    change Ends (Table.get loc) _ _ s
    unfold Ends
    rw [Table.get_eq]
    cases hf : s.find? loc with
    | some r => exact ⟨hf ▸ rfl, rfl⟩
    | none => rfl
  ends_list {s t} h space selector := by
    subst h
    exact ends_ok (Table.list_eq space selector s) ⟨rfl, rfl⟩
  ends_create {s t} h r := by
    subst h
    change Ends (Table.create r) _ _ s
    unfold Ends
    rw [Table.create_eq]
    cases hf : s.find? r.location with
    | some r' => rfl
    | none => exact ⟨hf ▸ rfl, rfl⟩
  ends_update {s t} h r := by
    subst h
    change Ends (Table.update r) _ _ s
    unfold Ends
    rw [Table.update_eq]
    cases hf : s.find? r.location with
    | some r' => exact ⟨hf ▸ Option.isSome_some, rfl⟩
    | none => rfl

/-! ## Storages around others -/

section Around

variable {σ : Type}

/-- A fault leaves the storage alone; without one the operation runs. -/
theorem Faulty.ends_guarded {α : Type} {op : Operation} {subject : String} {act : Action σ α}
    {s : Faulty σ} {Q : α → σ → Prop} {E : σ → Prop} (h : Ends act Q E s.inner) (he : E s.inner) :
    Ends (Faulty.guarded op subject act) (fun a s => Q a s.inner) (fun s => E s.inner) s := by
  unfold Ends
  rw [Faulty.guarded]
  cases s.faults.find? fun f => Faulty.hits f op subject with
  | some f =>
    by_cases hm : f.mode = .crash
    · simp only [if_pos hm]
      exact he
    · simp only [if_neg hm]
      exact he
  | none => exact ends_onPart h

variable [Storage σ] [LawfulStorage σ]

instance : LawfulStorage (Beside σ) where
  Shows b t := Shows b.secrets t
  ends_get h loc := ends_onPart (ends_get h loc)
  ends_list h space selector := ends_onPart (ends_list h space selector)
  ends_create h r := ends_onPart (ends_create h r)
  ends_update h r := ends_onPart (ends_update h r)

instance : LawfulStorage (Faulty σ) where
  Shows s t := Shows s.inner t
  ends_get h loc := Faulty.ends_guarded (ends_get h loc) h
  ends_list h space selector := Faulty.ends_guarded (ends_list h space selector) h
  ends_create h r := Faulty.ends_guarded (ends_create h r) h
  ends_update h r := Faulty.ends_guarded (ends_update h r) h

end Around

/-! ## Folders -/

namespace Folder

open FileTree

variable {root : Path} {f : Folder} {t : Table}

/-- Making a directory leaves what is represented. -/
theorem Represents.madeDir (h : Represents root f t) {space : String} {t₁ : FileTree}
    (hmake : f.files.makeDir [] (directory root space) = .ok t₁) :
    Represents root { f with files := t₁ } t := by
  obtain ⟨hkeep, hadd, -, hdist⟩ := makeDir_ok f.files.node?_nil hmake
  refine ⟨h.root_eq, hdist h.distinct, h.safe, fun r hr => ?_, fun space' x n hn => ?_⟩
  · obtain ⟨mode, hp⟩ := h.present r hr
    exact ⟨mode, resolve_mono (fun q m _ _ hm => hkeep q m hm) hp⟩
  · rcases hadd _ n hn with hn | ⟨way, hway, he⟩
    · exact h.named space' x n hn
    · have hle := hway.length_le
      rw [List.nil_append] at he
      rw [← he] at hle
      simp [directory] at hle

/-- A temporary beside the documents leaves what is represented. -/
theorem Represents.temporary (h : Represents root f t) (loc : Location) (bytes : List UInt8)
    (mode : Nat) :
    Represents root { f with
      files := f.files.put (directory root loc.space ++ [loc.name ++ ".json.tmp"])
        (.file bytes mode) } t := by
  refine ⟨h.root_eq, h.distinct.put _ _, h.safe, fun r hr => ?_, fun space x n hn => ?_⟩
  · obtain ⟨mode', hp⟩ := h.present r hr
    exact ⟨mode', resolve_put (not_prefix_temporary root loc (h.safe r hr)) hp⟩
  · rw [node?_put _ _ _ (by simp)] at hn
    split at hn
    · rename_i hpath
      have hp : directory root space ++ [x] <+: directory root loc.space ++
          [loc.name ++ ".json.tmp"] := hpath ▸ List.prefix_refl _
      rw [(eq_of_prefix_path hp).2]
      exact .inr (extension?_temporary _)
    · exact h.named space x n hn

theorem ends_change {g : FileTree → Except FileFault FileTree} {Q : Unit → Folder → Prop}
    {E : Folder → Prop} (h : ∀ t, g f.files = .ok t → Q () { f with files := t }) (he : E f) :
    Ends (change g) Q E f := by
  unfold Ends
  rw [change_eq]
  cases hg : g f.files with
  | ok t => exact h t hg
  | error fault => exact he

/-- Writing a record succeeds as a whole or leaves what is represented. -/
theorem Represents.ends_writeRecord (h : Represents root f t) {r : Record}
    (hs : r.location.isSafe = true) :
    Ends (writeRecord (recordPath root r.location) r) (fun _ f' => Represents root f' (t.put r))
      (fun f' => Represents root f' t) f := by
  obtain rfl := h.root_eq
  unfold writeRecord
  refine ends_bind (ends_ok rfl (ends_bind (ends_change (fun t₁ hmake => ?_) h)))
  rw [recordPath, List.dropLast_concat] at hmake
  have hmade := h.madeDir hmake
  obtain ⟨-, -, hres, -⟩ := makeDir_ok f.files.node?_nil hmake
  rw [temporaryOf_eq]
  refine ends_bind (ends_change (fun t₂ hwrite => ?_) hmade)
  rcases write_cases hres r.document privateMode with ⟨mode, hsize, hwritten⟩ | ⟨fault, -, hfailed⟩
  · obtain rfl := Except.ok.inj (hwritten.symm.trans hwrite)
    have htemporary := hmade.temporary r.location r.document mode
    refine ends_change (fun t₃ hmove => ?_) htemporary
    have hdir : (t₁.put (directory f.root r.location.space ++ [r.location.name ++ ".json.tmp"])
        (.file r.document mode)).resolve [] (directory f.root r.location.space) = .ok .dir :=
      resolve_put not_prefix_directory hres
    have htmp : (t₁.put (directory f.root r.location.space ++ [r.location.name ++ ".json.tmp"])
        (.file r.document mode)).resolve []
          (directory f.root r.location.space ++ [r.location.name ++ ".json.tmp"]) =
        .ok (.file r.document mode) := by
      refine resolve_concat_ok.mpr ⟨hdir, hsize, ?_⟩
      rw [node?_put _ _ _ (by simp), if_pos rfl]
    rcases moveFile_cases (y := r.location.name ++ ".json") hdir htmp with
      ⟨hlong, hmoved⟩ | ⟨fault, -, hfailed⟩
    · obtain rfl := Except.ok.inj (hmoved.symm.trans hmove)
      exact h.written hs hmake hlong
    · cases hfailed.symm.trans hmove
  · cases hfailed.symm.trans hwrite

/-- An operation at a place that no path can name does nothing. -/
theorem ends_locate {loc : Location} {Q : Path → Folder → Prop} {E : Folder → Prop}
    (h : loc.isSafe = true → Q (recordPath f.root loc) f) (he : E f) : Ends (locate loc) Q E f := by
  by_cases hs : loc.isSafe = true
  · exact ends_ok (locate_eq hs f) (h hs)
  · refine ends_bind (ends_ok rfl (ends_ofExcept (fun path hp => absurd ?_ hs) he))
    have hname : isSegment loc.name = true ∧ isSegment loc.space = true := by
      simp only [pathOf, checkSegment] at hp
      by_cases hn : isSegment loc.name = true <;> by_cases hsp : isSegment loc.space = true <;>
        simp [hn, hsp, bind, Except.bind] at hp
      exact ⟨hn, hsp⟩
    exact Bool.and_eq_true_iff.mpr ⟨hname.2, hname.1⟩

theorem Represents.ends_get (h : Represents f.root f t) (loc : Location) :
    Ends (get loc) (fun r f' => t.find? loc = some r ∧ Represents f'.root f' t)
      (fun f' => Represents f'.root f' t) f := by
  refine ends_bind (ends_locate (fun hs => ?_) h)
  cases hf : t.find? loc with
  | some r =>
    obtain ⟨hr, rfl⟩ := Table.found hf
    exact ends_ok (h.readRecord_ok hr _) ⟨rfl, h⟩
  | none =>
    obtain ⟨fault, hp⟩ := h.absent hs hf
    have hread : f.files.read (recordPath f.root loc) = .error fault := by
      rw [FileTree.read, hp]
    unfold Ends
    rw [readRecord_eq, hread]
    cases fault <;> exact h

theorem Represents.ends_list (h : Represents f.root f t) (space : String) (selector : Labels) :
    Ends (list space selector)
      (fun rs f' => rs = t.selected space selector ∧ Represents f'.root f' t)
      (fun f' => Represents f'.root f' t) f := by
  by_cases hs : isSegment space = true
  · rcases h.list_cases hs selector with hl | ⟨e, -, hl⟩
    · exact ends_ok hl ⟨rfl, h⟩
    · exact ends_error hl h
  · refine ends_bind (ends_ofExcept (fun space' hspace => ?_) h)
    rw [checkSegment, if_neg hs] at hspace
    cases hspace

theorem Represents.ends_isTaken (h : Represents f.root f t) {loc : Location}
    (hs : loc.isSafe = true) :
    Ends (isTaken (recordPath f.root loc))
      (fun taken f' => f' = f ∧ taken = (t.find? loc).isSome)
      (fun f' => Represents f'.root f' t) f := by
  unfold Ends
  rw [isTaken_eq]
  cases hf : t.find? loc with
  | some r =>
    obtain ⟨hr, rfl⟩ := Table.found hf
    obtain ⟨mode, hp⟩ := h.present r hr
    rw [hp]
    exact ⟨rfl, rfl⟩
  | none =>
    obtain ⟨fault, hp⟩ := h.absent hs hf
    rw [hp]
    cases fault with
    | missing => exact ⟨rfl, rfl⟩
    | _ => exact h

theorem Represents.ends_written (h : Represents f.root f t) {r : Record}
    (hs : r.location.isSafe = true) :
    Ends (writeRecord (recordPath f.root r.location) r)
      (fun _ f' => Represents f'.root f' (t.put r)) (fun f' => Represents f'.root f' t) f :=
  (h.ends_writeRecord hs).mono (fun _ _ h' => h'.root_eq.symm ▸ h') fun _ h' =>
    h'.root_eq.symm ▸ h'

/-- The folder represents the table at its root. -/
instance : LawfulStorage Folder where
  Shows f t := Represents f.root f t
  ends_get h loc := h.ends_get loc
  ends_list h space selector := h.ends_list space selector
  ends_create {f t} h r := by
    refine ends_bind (ends_locate (fun hs => ?_) h)
    refine ends_bind ((h.ends_isTaken hs).mono (fun taken f' ⟨hf, htaken⟩ => ?_) fun _ h' => h')
    subst hf
    cases hf : t.find? r.location with
    | some r' =>
      rw [hf] at htaken
      rw [htaken]
      exact ends_fail h
    | none =>
      rw [hf] at htaken
      rw [htaken]
      exact (h.ends_written hs).mono (fun _ _ h' => ⟨rfl, h'⟩) fun _ h' => h'
  ends_update {f t} h r := by
    refine ends_bind (ends_locate (fun hs => ?_) h)
    refine ends_bind ((h.ends_isTaken hs).mono (fun taken f' ⟨hf, htaken⟩ => ?_) fun _ h' => h')
    subst hf
    cases hf : t.find? r.location with
    | some r' =>
      rw [hf] at htaken
      rw [htaken]
      exact (h.ends_written hs).mono (fun _ _ h' => ⟨rfl, h'⟩) fun _ h' => h'
    | none =>
      rw [hf] at htaken
      rw [htaken]
      exact ends_fail h

end Folder

end CredentialEngine.Secret
