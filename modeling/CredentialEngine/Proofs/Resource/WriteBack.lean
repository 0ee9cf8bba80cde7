import CredentialEngine.Proofs.Json.Reading
import CredentialEngine.Proofs.Manifest
import CredentialEngine.Proofs.Resource.User

/-!
# Writing manifests back

A JSON manifest that is saved is loaded again as the same manifest, and saving that one writes the
same text.
-/
namespace CredentialEngine

open Json

variable {n : Nat}

namespace Resource

def durations : Resource → List Duration
  | .account a => a.durations
  | .user u => u.durations

def times : Resource → List Time.Timestamp
  | .account a => a.times
  | .user u => u.times

/-- The members of a resource say nothing of its kind, so the tag is found and taken off again. -/
theorem ofJson?_toJson (r : Resource) :
    ofJson? r.toJson = ofMembers? r.kind (record r.members) := by
  cases r <;> rfl

theorem keeps {r : Resource} (hexact : ∀ d ∈ r.durations, d.IsExact)
    (htime : ∀ t ∈ r.times, t.IsPlain) : Keeps (n + 6) ofJson? r.toJson r := by
  have hbody : Fits (n + 6) (record r.members) ∧ ofMembers? r.kind (record r.members) = some r := by
    cases r with
    | account a =>
      have h := Account.keeps .gathered (n := n) hexact htime
      refine ⟨h.fits, ?_⟩
      show (Account.ofJson? .gathered a.toJson).map account = some (account a)
      rw [h.read_eq, Option.map_some]
    | user u =>
      have h := User.keeps (n := n) hexact htime
      refine ⟨h.fits, ?_⟩
      show (User.ofJson? u.toJson).map user = some (user u)
      rw [h.read_eq, Option.map_some]
  exact ⟨hbody.1.cons kindMember (keeps_text (n + 5) r.kind).fits,
    (ofJson?_toJson r).trans hbody.2, nofun⟩

end Resource

namespace Manifest

open FileTree

theorem read?_write {r : Resource} (hexact : ∀ d ∈ r.durations, d.IsExact)
    (htime : ∀ t ∈ r.times, t.IsPlain) : Format.json.read? (Format.json.write r) = some r := by
  have hkeeps : Keeps jsonDepth Resource.ofJson? r.toJson r :=
    Resource.keeps (n := 121) hexact htime
  rw [Format.read?, Format.write, ofText?_pretty hkeeps.fits.writable, Option.filter_some,
    if_pos hkeeps.fits.readable, Option.bind_some, hkeeps.read_eq]

/-- There is nothing to fill in where a resource says its namespace and its identity. -/
theorem complete_of_ne {r : Resource} (hspace : r.metadata.space ≠ "") (huid : r.metadata.uid ≠ "")
    (defaults : Defaults) (n : Nat) : complete defaults n r = r := by
  have hs : r.metadata.space.isEmpty = false := by simpa using hspace
  have hu : r.metadata.uid.isEmpty = false := by simpa using huid
  rw [complete, hs, hu]
  cases r <;> rfl

/-- A JSON manifest is saved where a file can be written, now and after that. -/
theorem exists_save {t : FileTree} {d : Path} {name : String} (htakes : t.Takes d name)
    (hjson : FileTree.extension? name = some "json") (r : Resource) :
    ∃ t', save ⟨d ++ [name], r⟩ t = .ok t' ∧ t'.Takes d name ∧
      t'.read (d ++ [name]) = .ok (Key.textBytes (Format.json.write r)) := by
  obtain ⟨mode, hwrite⟩ := exists_write htakes (Key.textBytes (Format.json.write r)) ordinaryMode
  refine ⟨_, ?_, htakes.put _ mode, read_of_write hwrite⟩
  rw [save, List.getLast?_concat, Option.getD_some, Format.ofName, if_pos hjson, hwrite]

/-- A manifest with a namespace and an identity that is saved as JSON, where a file can be written,
is loaded again as it was, whatever the defaults, and saving what was loaded writes the same
text. -/
theorem load_save {m : Manifest} {d : Directory} {name : String} (hpath : m.path = d.path ++ [name])
    (hjson : FileTree.extension? name = some "json") (hspace : m.resource.metadata.space ≠ "")
    (huid : m.resource.metadata.uid ≠ "") (htime : ∀ t ∈ m.resource.times, t.IsPlain)
    (hexact : ∀ d ∈ m.resource.durations, d.IsExact) {t : FileTree} (htakes : t.Takes d.path name)
    (defaults : Defaults) (n : Nat) :
    ∃ t', m.save t = .ok t' ∧ load t' d defaults n name = .ok m ∧
      ∃ t'', m.save t' = .ok t'' ∧ t''.read m.path = t'.read m.path := by
  obtain ⟨path, r⟩ := m
  dsimp only at hpath hspace huid htime hexact ⊢
  subst hpath
  obtain ⟨t', hsaved, htakes', hread⟩ := exists_save htakes hjson r
  obtain ⟨t'', hagain, -, hread'⟩ := exists_save htakes' hjson r
  have hformat : Format.ofName name = .json := if_pos hjson
  refine ⟨t', hsaved, ?_, t'', hagain, hread'.trans hread.symm⟩
  simp only [load, hread, Text.fromUTF8?_textBytes, hformat, read?_write hexact htime,
    complete_of_ne hspace huid]

/-- A shop on its way out in the leap second of 2016, with a service that answers within 1.5 s. -/
def leavingShop : Manifest where
  path := ["manifests", "shop.json"]
  resource := .account {
    metadata := {
      name := "shop", space := "tenants", uid := "u-1"
      labels := Dict.empty.insert Label.accountId "AB\"\\\n"
      deletion := some ⟨1483228799, 1500000000⟩ }
    spec := {
      natsLimits := some { payload := some (-9223372036854775808) }
      exports := [{
        subject := "orders.>", flow := .service, replyThreshold := some ⟨1500000000⟩
        latency := some ⟨0, "latency"⟩ }]
      imports := [{ subject := "stock.*", source := some ⟨"stock", none⟩ }] } }

/-- The directory is there and still empty. -/
theorem load_save_leavingShop :
    ∃ t', leavingShop.save ⟨[(["manifests"], .dir)]⟩ = .ok t' ∧
      load t' ⟨"manifests", ["manifests"]⟩ ⟨"default", fun _ => "u-2"⟩ 0 "shop.json" =
        .ok leavingShop ∧
      ∃ t'', leavingShop.save t' = .ok t'' ∧ t''.read leavingShop.path = t'.read leavingShop.path :=
  load_save rfl (by decide) (by decide) (by decide) (by decide) (by decide)
    ⟨rfl, by decide, by decide⟩ _ _

end Manifest

end CredentialEngine
