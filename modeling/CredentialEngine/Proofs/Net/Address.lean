import CredentialEngine.Net.Network
import CredentialEngine.Proofs.Text.Digits
import CredentialEngine.Proofs.Text.Splitting
import Mathlib.Data.List.TakeWhile

/-!
# The texts of addresses

An IPv4 address is four numbers below 256 with points between them. An IPv6 address is eight groups
of hexadecimal digits with colons between them, of which a run may be left out as two colons and the
last two may be written as an IPv4 address. The reader accepts exactly these texts.
-/
namespace CredentialEngine.Net

open Text

/-- Four numbers below 256 with points between them. -/
def IsIpv4 (cs : List Char) : Prop :=
  ∃ a b c d : Nat, (a < 256 ∧ b < 256 ∧ c < 256 ∧ d < 256) ∧
    cs = Nat.toDigits 10 a ++ '.' :: (Nat.toDigits 10 b ++ '.' ::
      (Nat.toDigits 10 c ++ '.' :: Nat.toDigits 10 d))

def isHex (c : Char) : Bool :=
  (Json.hexVal? c).isSome

/-- One to four hexadecimal digits. -/
structure IsGroup (cs : List Char) : Prop where
  nonempty : cs ≠ []
  short : cs.length ≤ 4
  hex : ∀ c ∈ cs, isHex c = true

/-- At least one group, with colons between them. In a mixed row the last two may be written as an
IPv4 address. -/
inductive Groups (mixed : Bool) : Nat → List Char → Prop
  | single {g : List Char} (hg : IsGroup g) : Groups mixed 1 g
  | ipv4 {t : List Char} (hmixed : mixed = true) (ht : IsIpv4 t) : Groups mixed 2 t
  | cons {g t : List Char} {n : Nat} (hg : IsGroup g) (ht : Groups mixed n t) :
      Groups mixed (n + 1) (g ++ ':' :: t)

/-- The groups on one side of two colons, which may be none. -/
def Side (mixed : Bool) (n : Nat) (cs : List Char) : Prop :=
  n = 0 ∧ cs = [] ∨ Groups mixed n cs

/-- All eight groups, or fewer around two colons. -/
inductive IsIpv6 (cs : List Char) : Prop
  | full (h : Groups true 8 cs)
  | short (front back : List Char) (m n : Nat) (hfront : Side false m front)
      (hback : Side true n back) (hfew : m + n ≤ 7) (hcs : cs = front ++ ':' :: ':' :: back)

/-- The text is an address of so many bits. -/
inductive IsAddress : Nat → List Char → Prop
  | ipv4 {cs : List Char} (h : IsIpv4 cs) : IsAddress 32 cs
  | ipv6 {cs : List Char} (h : IsIpv6 cs) : IsAddress 128 cs

/-! ## IPv4 -/

theorem after?_eq_some {c : Char} {cs r : List Char} : after? c cs = some r ↔ cs = c :: r := by
  cases cs with
  | nil => simp [after?]
  | cons d ds => simp only [after?, List.cons.injEq]; split <;> simp_all

theorem octet?_eq_some {cs r : List Char} {n : Nat} :
    octet? cs = some (n, r) ↔
      n < 256 ∧ cs = Nat.toDigits 10 n ++ r ∧ ∀ c ∈ r.head?, c.isDigit = false := by
  constructor
  · intro h
    rw [octet?] at h
    dsimp only at h
    split at h
    · contradiction
    rename_i hrun
    split at h
    · rename_i hlt
      obtain ⟨rfl, rfl⟩ := Prod.mk.inj (Option.some.inj h)
      simp only [not_or, not_and, List.isEmpty_iff] at hrun
      obtain ⟨hne, -, hzero⟩ := hrun
      rw [toDigits_digitsVal (fun c hc => List.mem_takeWhile_imp hc) hne
        fun h0 => Nat.not_lt.mp (hzero h0)]
      rw [drop_length_takeWhile]
      exact ⟨hlt, List.takeWhile_append_dropWhile.symm, fun c => of_mem_head?_dropWhile⟩
    · contradiction
  · rintro ⟨hn, rfl, hr⟩
    have hdigits : ∀ c ∈ Nat.toDigits 10 n, c.isDigit = true := fun c => isDigit_of_mem_toDigits
    have hlength : (Nat.toDigits 10 n).length ≤ 3 :=
      (Nat.length_toDigits_le_iff (by decide) (by decide)).mpr (by omega)
    have hzero : ¬ ((Nat.toDigits 10 n).head? = some '0' ∧ 1 < (Nat.toDigits 10 n).length) := by
      rintro ⟨hhead, hlong⟩
      rcases Nat.eq_zero_or_pos n with rfl | hpos
      · exact absurd hlong (by decide)
      · obtain ⟨c, cs, hcons, hc⟩ := head_toDigits_ne_zero hpos.ne'
        rw [hcons] at hhead
        exact hc (Option.some.inj hhead)
    rw [octet?]
    simp only [takeWhile_run hdigits hr]
    rw [if_neg, digitsVal_toDigits, if_pos hn, List.drop_left' rfl]
    simp only [List.isEmpty_iff, not_or, Nat.toDigits_ne_nil]
    exact ⟨not_false, Nat.not_lt.mpr hlength, hzero⟩

/-- An IPv4 address is read off whatever does not go on with a digit. -/
theorem ipv4?_append {t r : List Char} (ht : IsIpv4 t) (hr : ∀ c ∈ r.head?, c.isDigit = false) :
    ∃ a b c d, ipv4? (t ++ r) = some ([a, b, c, d], r) := by
  obtain ⟨a, b, c, d, ⟨ha, hb, hc, hd⟩, rfl⟩ := ht
  have hpoint : ∀ {cs : List Char}, ∀ e ∈ ('.' :: cs).head?, e.isDigit = false := by
    rintro cs e he
    obtain rfl := Option.some.inj he
    rfl
  have hoctet : ∀ {n : Nat} {cs : List Char}, n < 256 → (∀ e ∈ cs.head?, e.isDigit = false) →
      octet? (Nat.toDigits 10 n ++ cs) = some (n, cs) := fun hn hcs =>
    octet?_eq_some.mpr ⟨hn, rfl, hcs⟩
  refine ⟨a, b, c, d, ?_⟩
  simp only [List.append_assoc, List.cons_append, ipv4?, hoctet ha hpoint, hoctet hb hpoint,
    hoctet hc hpoint, hoctet hd hr, after?, if_true, Option.bind_eq_bind, Option.bind_some]
  rfl

theorem of_ipv4? {cs r : List Char} {ns : List Nat} (h : ipv4? cs = some (ns, r)) :
    ∃ t, IsIpv4 t ∧ cs = t ++ r ∧ ∃ a b c d, ns = [a, b, c, d] := by
  simp only [ipv4?, Option.bind_eq_bind, Option.bind_eq_some_iff, Prod.exists, octet?_eq_some,
    after?_eq_some, Option.pure_def, Option.some.injEq, Prod.mk.injEq] at h
  obtain ⟨a, r₁, ⟨ha, rfl, -⟩, r₂, rfl, b, r₃, ⟨hb, rfl, -⟩, r₄, rfl, c, r₅, ⟨hc, rfl, -⟩, r₆, rfl,
    d, r₇, ⟨hd, rfl, -⟩, rfl, rfl⟩ := h
  refine ⟨_, ⟨a, b, c, d, ⟨ha, hb, hc, hd⟩, rfl⟩, ?_, a, b, c, d, rfl⟩
  simp only [List.append_assoc, List.cons_append]

/-- Behind the first digits of an IPv4 address stands a point. -/
theorem ipv4?_eq_none {cs : List Char} (h : (cs.dropWhile Char.isDigit).head? ≠ some '.') :
    ipv4? cs = none := by
  rw [Option.eq_none_iff_forall_not_mem]
  rintro ⟨ns, r⟩ hsome
  obtain ⟨t, ⟨a, b, c, d, -, rfl⟩, rfl, -⟩ := of_ipv4? hsome
  have hdigits : ∀ c ∈ Nat.toDigits 10 a, c.isDigit = true := fun c => isDigit_of_mem_toDigits
  rw [List.append_assoc, List.dropWhile_append_of_pos hdigits] at h
  exact h rfl

/-! ## Groups -/

theorem isHex_of_isDigit {c : Char} (h : c.isDigit = true) : isHex c = true := by
  rw [isHex, Json.hexVal?, if_pos h]
  rfl

/-- A colon or nothing: what can stand behind a group. -/
def Ends (r : List Char) : Prop :=
  ∀ c ∈ r.head?, c = ':'

theorem Ends.isHex {r : List Char} (h : Ends r) : ∀ c ∈ r.head?, isHex c = false :=
  fun c hc => h c hc ▸ rfl

theorem group?_append {g r : List Char} (hg : IsGroup g) (hr : Ends r) :
    ∃ n, group? (g ++ r) = some (n, r) := by
  have htake : (g ++ r).takeWhile (fun c => (Json.hexVal? c).isSome) = g :=
    takeWhile_run hg.hex hr.isHex
  simp only [group?, htake]
  rw [if_neg, List.drop_left' rfl]
  · exact ⟨_, rfl⟩
  · simp only [List.isEmpty_iff, not_or]
    exact ⟨hg.nonempty, Nat.not_lt.mpr hg.short⟩

theorem of_group? {cs r : List Char} {n : Nat} (h : group? cs = some (n, r)) :
    ∃ g, IsGroup g ∧ cs = g ++ r := by
  rw [group?] at h
  split at h
  · contradiction
  · rename_i hrun
    obtain ⟨-, rfl⟩ := Prod.mk.inj (Option.some.inj h)
    simp only [List.isEmpty_iff, not_or, Nat.not_lt] at hrun
    refine ⟨_, ⟨hrun.1, hrun.2, fun c hc => List.mem_takeWhile_imp hc⟩, ?_⟩
    rw [drop_length_takeWhile, List.takeWhile_append_dropWhile]

/-- Behind the digits that a group starts with there is no point. -/
theorem IsGroup.ipv4?_eq_none {g r : List Char} (hg : IsGroup g) (hr : Ends r) :
    ipv4? (g ++ r) = none := by
  refine Net.ipv4?_eq_none fun hpoint => ?_
  cases hd : g.dropWhile Char.isDigit with
  | nil =>
    rw [List.dropWhile_append, hd, List.isEmpty_nil, if_pos rfl] at hpoint
    have hcolon := hr '.' ?_
    · exact absurd hcolon (by decide)
    · cases r with
      | nil => exact hpoint
      | cons c r =>
        have hc := hr c rfl
        subst hc
        exact hpoint
  | cons c cs =>
    rw [List.dropWhile_append, hd, List.isEmpty_cons, if_neg Bool.false_ne_true] at hpoint
    have hc := hg.hex c ((List.dropWhile_sublist Char.isDigit).subset (hd ▸ List.mem_cons_self))
    rw [Option.some.inj hpoint] at hc
    exact absurd hc (by decide)

/-- What the reader finds before a group: nothing before the first, else a colon. -/
def lead (first : Bool) : List Char :=
  if first then [] else [':']

theorem groups_lead (first : Bool) (limit : Nat) (inner : List Char) :
    groups first (limit + 1) (lead first ++ inner) =
      match if limit = 0 then none else ipv4? inner with
      | some ([a, b, c, d], r) => ([a * 256 + b, c * 256 + d], true, r)
      | _ =>
        match group? inner with
        | none => ([], false, lead first ++ inner)
        | some (g, r) =>
          let (gs, v4, r) := groups false limit r
          (g :: gs, v4, r) := by
  cases first <;> rw [groups] <;> rfl

/-- Without a colon in front there is no group but the first. -/
theorem groups_of_no_lead {limit : Nat} {cs : List Char} (h : ∀ inner, cs ≠ ':' :: inner) :
    groups false limit cs = ([], false, cs) := by
  cases limit with
  | zero => rfl
  | succ limit =>
    have hnone : after? ':' cs = none := by
      rw [Option.eq_none_iff_forall_not_mem]
      exact fun inner hinner => h inner (after?_eq_some.mp hinner)
    rw [groups]
    simp only [Bool.false_eq_true, if_false, hnone]

/-- A text that does not go on with a group: it is at its end or goes on with two colons. -/
def Stops (r : List Char) : Prop :=
  r = [] ∨ ∃ r', r = ':' :: ':' :: r'

theorem Stops.ends {r : List Char} (h : Stops r) : Ends r := by
  rcases h with rfl | ⟨r', rfl⟩
  · nofun
  · exact fun c hc => (Option.some.inj hc).symm

theorem groups_of_ends (first : Bool) (limit : Nat) {inner : List Char} (h : Ends inner) :
    groups first limit (lead first ++ inner) = ([], false, lead first ++ inner) := by
  cases limit with
  | zero => rfl
  | succ limit =>
    have htake : inner.takeWhile (fun c => (Json.hexVal? c).isSome) = [] :=
      @takeWhile_run isHex [] inner nofun h.isHex
    have hgroup : group? inner = none := by simp only [group?, htake]; rfl
    have hfour : ipv4? inner = none := by
      refine ipv4?_eq_none fun hpoint => ?_
      cases inner with
      | nil => contradiction
      | cons c cs =>
        obtain rfl := h c rfl
        exact absurd (Option.some.inj (hpoint : some ':' = some '.')) (by decide)
    rw [groups_lead, hfour, ite_self, hgroup]

theorem groups_of_stops (first : Bool) (limit : Nat) {r : List Char} (h : Stops r) :
    groups first limit r = ([], false, r) := by
  cases first with
  | true => exact groups_of_ends true limit h.ends
  | false =>
    rcases h with rfl | ⟨r', rfl⟩
    · exact groups_of_no_lead nofun
    · have hends : Ends (':' :: r') := fun c hc => (Option.some.inj hc).symm
      exact groups_of_ends false limit hends

/-- A row of groups is read up to where it stops. -/
theorem groups_append {mixed : Bool} {n : Nat} {t : List Char} (ht : Groups mixed n t)
    {limit : Nat} (hle : n ≤ limit) (first : Bool) {r : List Char} (hr : Stops r) :
    ∃ gs v4, groups first limit (lead first ++ (t ++ r)) = (gs, v4, r) ∧ gs.length = n ∧
      (mixed = false → v4 = false) := by
  -- on the row: the reader takes off one group, or the IPv4 address at the end, and calls itself
  induction ht generalizing limit first with
  | @single g hg =>
    obtain ⟨limit, rfl⟩ : ∃ k, limit = k + 1 := ⟨limit - 1, by omega⟩
    obtain ⟨x, hgroup⟩ := group?_append hg hr.ends
    refine ⟨[x], false, ?_, rfl, fun _ => rfl⟩
    rw [groups_lead, hg.ipv4?_eq_none hr.ends, ite_self, hgroup]
    simp only [groups_of_stops false limit hr]
  | @ipv4 t hmixed ht =>
    obtain ⟨limit, rfl⟩ : ∃ k, limit = k + 2 := ⟨limit - 2, by omega⟩
    have hdigit : ∀ c ∈ r.head?, c.isDigit = false := fun c hc => hr.ends c hc ▸ rfl
    obtain ⟨a, b, c, d, hfour⟩ := ipv4?_append ht hdigit
    refine ⟨[a * 256 + b, c * 256 + d], true, ?_, rfl, fun h => ?_⟩
    · rw [groups_lead, hfour, if_neg (Nat.succ_ne_zero limit)]
    · rw [hmixed] at h
      contradiction
  | @cons g t n hg ht ih =>
    obtain ⟨limit, rfl⟩ : ∃ k, limit = k + 1 := ⟨limit - 1, by omega⟩
    have hcolon : Ends (':' :: (t ++ r)) := fun c hc => (Option.some.inj hc).symm
    obtain ⟨x, hgroup⟩ := group?_append hg hcolon
    obtain ⟨gs, v4, hrest, hlength, hpure⟩ := ih (Nat.le_of_succ_le_succ hle) false
    refine ⟨x :: gs, v4, ?_, by rw [List.length_cons, hlength], hpure⟩
    rw [List.append_assoc, List.cons_append, groups_lead, hg.ipv4?_eq_none hcolon, ite_self, hgroup]
    change groups false limit (':' :: (t ++ r)) = _ at hrest
    simp only [hrest]

/-- What is read is a row of groups, or nothing. -/
theorem of_groups {first : Bool} {limit : Nat} {cs r : List Char} {gs : List Nat} {v4 : Bool}
    (h : groups first limit cs = (gs, v4, r)) :
    gs.length ≤ limit ∧ (gs = [] ∧ v4 = false ∧ r = cs ∨
      ∃ t, cs = lead first ++ (t ++ r) ∧ Groups v4 gs.length t) := by
  induction limit generalizing first cs gs v4 r with
  | zero =>
    simp only [groups, Prod.mk.injEq] at h
    obtain ⟨rfl, rfl, rfl⟩ := h
    exact ⟨Nat.le_refl _, .inl ⟨rfl, rfl, rfl⟩⟩
  | succ limit ih =>
    -- without the colon that goes before a group nothing is read at all
    by_cases hlead : ∃ inner, cs = lead first ++ inner
    · obtain ⟨inner, rfl⟩ := hlead
      rw [groups_lead] at h
      split at h
      · rename_i hfour
        simp only [Prod.mk.injEq] at h
        obtain ⟨rfl, rfl, rfl⟩ := h
        split at hfour
        · contradiction
        · rename_i hroom
          obtain ⟨t, ht, rfl, -⟩ := of_ipv4? hfour
          refine ⟨?_, .inr ⟨t, rfl, .ipv4 rfl ht⟩⟩
          change 2 ≤ limit + 1
          omega
      split at h
      · simp only [Prod.mk.injEq] at h
        obtain ⟨rfl, rfl, rfl⟩ := h
        exact ⟨Nat.zero_le _, .inl ⟨rfl, rfl, rfl⟩⟩
      · rename_i r' hgroup
        obtain ⟨g, hg, rfl⟩ := of_group? hgroup
        obtain ⟨⟨gs', v4', r''⟩, hread⟩ : ∃ result, groups false limit r' = result := ⟨_, rfl⟩
        obtain ⟨hlength, hrest⟩ := ih hread
        simp only [hread, Prod.mk.injEq] at h
        obtain ⟨rfl, rfl, rfl⟩ := h
        refine ⟨Nat.succ_le_succ hlength, .inr ?_⟩
        rcases hrest with ⟨rfl, rfl, rfl⟩ | ⟨t, rfl, ht⟩
        · exact ⟨g, rfl, .single hg⟩
        · refine ⟨g ++ ':' :: t, ?_, .cons hg ht⟩
          rw [List.append_assoc]
          rfl
    · cases first with
      | true => exact absurd ⟨cs, rfl⟩ hlead
      | false =>
        rw [groups_of_no_lead fun inner he => hlead ⟨inner, he⟩] at h
        simp only [Prod.mk.injEq] at h
        obtain ⟨rfl, rfl, rfl⟩ := h
        exact ⟨Nat.zero_le _, .inl ⟨rfl, rfl, rfl⟩⟩

theorem Groups.mixed {mixed : Bool} {n : Nat} {t : List Char} (h : Groups mixed n t) :
    Groups true n t := by
  induction h with
  | single hg => exact .single hg
  | ipv4 _ ht => exact .ipv4 rfl ht
  | cons hg _ ih => exact .cons hg ih

/-! ## IPv6 -/

theorem side_append {mixed : Bool} {n : Nat} {t : List Char} (ht : Side mixed n t) {limit : Nat}
    (hle : n ≤ limit) {r : List Char} (hr : Stops r) :
    ∃ gs v4, groups true limit (t ++ r) = (gs, v4, r) ∧ gs.length = n ∧
      (mixed = false → v4 = false) := by
  rcases ht with ⟨rfl, rfl⟩ | ht
  · exact ⟨[], false, groups_of_stops true limit hr, rfl, fun _ => rfl⟩
  · exact groups_append ht hle true hr

theorem of_groups_true {limit : Nat} {cs r : List Char} {gs : List Nat} {v4 : Bool}
    (h : groups true limit cs = (gs, v4, r)) :
    gs.length ≤ limit ∧ ∃ t, cs = t ++ r ∧ Side v4 gs.length t := by
  obtain ⟨hlength, ⟨rfl, rfl, rfl⟩ | ⟨t, rfl, ht⟩⟩ := of_groups h
  · exact ⟨hlength, [], rfl, .inl ⟨rfl, rfl⟩⟩
  · exact ⟨hlength, t, rfl, .inr ht⟩

theorem ipv6?_of_isIpv6 {cs : List Char} (h : IsIpv6 cs) : ∃ ns, ipv6? cs = some (ns, []) := by
  cases h with
  | full h =>
    obtain ⟨gs, v4, hread, hlength, -⟩ := groups_append h (Nat.le_refl 8) true (.inl rfl)
    change groups true 8 (cs ++ []) = _ at hread
    rw [List.append_nil] at hread
    exact ⟨gs, by simp only [ipv6?, hread, hlength, if_true]⟩
  | short front back m n hfront hback hfew hcs =>
    subst hcs
    -- two colons leave room for at most seven groups, of which the front has taken its share
    obtain ⟨gs, v4, hread, hlength, hpure⟩ :=
      side_append hfront (show m ≤ 8 by omega) (.inr ⟨back, rfl⟩)
    obtain ⟨gs', v4', hread', -, -⟩ :=
      side_append hback (show n ≤ 7 - gs.length by omega) (.inl rfl)
    rw [List.append_nil] at hread'
    refine ⟨gs ++ List.replicate (8 - gs.length - gs'.length) 0 ++ gs', ?_⟩
    simp only [ipv6?, hread, hpure rfl, hread', if_neg (show ¬ gs.length = 8 by omega),
      Bool.false_eq_true, if_false]

theorem isIpv6_of_ipv6? {cs : List Char} {ns : List Nat} (h : ipv6? cs = some (ns, [])) :
    IsIpv6 cs := by
  obtain ⟨⟨front, v4, r⟩, hread⟩ : ∃ result, groups true 8 cs = result := ⟨_, rfl⟩
  obtain ⟨hlimit, t, rfl, ht⟩ := of_groups_true hread
  simp only [ipv6?, hread] at h
  split at h
  · rename_i height
    obtain ⟨rfl, rfl⟩ := Prod.mk.inj (Option.some.inj h)
    rw [List.append_nil]
    rcases ht with ⟨hzero, -⟩ | ht
    · omega
    · exact .full (height ▸ ht.mixed)
  split at h
  · contradiction
  rename_i height hpure
  split at h
  · rename_i r'
    obtain ⟨⟨back, v4', r''⟩, hread'⟩ :
      ∃ result, groups true (7 - front.length) r' = result := ⟨_, rfl⟩
    obtain ⟨hlength, t', rfl, ht'⟩ := of_groups_true hread'
    simp only [hread', Option.some.injEq, Prod.mk.injEq] at h
    obtain ⟨-, rfl⟩ := h
    obtain rfl : v4 = false := Bool.eq_false_iff.mpr hpure
    rw [List.append_nil]
    exact .short t t' front.length back.length ht (ht'.imp_right Groups.mixed) (by omega) rfl
  · contradiction

/-! ## Addresses -/

/-- An IPv6 address starts with two colons or with a group and a colon, so it is not taken for an
IPv4 address. -/
theorem IsIpv6.ipv4?_eq_none {cs : List Char} (h : IsIpv6 cs) : ipv4? cs = none := by
  have hrow : ∀ {mixed : Bool} {n : Nat} {t r : List Char}, Groups mixed n t →
      (mixed = false ∧ Ends r ∨ 2 < n) → ipv4? (t ++ r) = none := by
    intro mixed n t r ht hn
    cases ht with
    | single hg => exact hg.ipv4?_eq_none (hn.resolve_right (by decide)).2
    | ipv4 hmixed _ =>
      rcases hn with ⟨hpure, -⟩ | hn
      · rw [hpure] at hmixed
        contradiction
      · omega
    | cons hg _ =>
      rw [List.append_assoc]
      exact hg.ipv4?_eq_none fun c hc => (Option.some.inj hc).symm
  cases h with
  | full h =>
    have hnone := hrow (r := []) h (.inr (by decide))
    rwa [List.append_nil] at hnone
  | short front back m n hfront hback hfew hcs =>
    subst hcs
    rcases hfront with ⟨-, rfl⟩ | hfront
    · rfl
    · exact hrow hfront (.inl ⟨rfl, fun c hc => (Option.some.inj hc).symm⟩)

/-- A text is taken for an address of some number of bits exactly if it is one. -/
theorem addressBits?_eq_some {cs : List Char} {bits : Nat} :
    addressBits? cs = some bits ↔ IsAddress bits cs := by
  constructor
  · intro h
    rw [addressBits?] at h
    split at h
    · rename_i ns r hfour
      split at h
      · rename_i hend
        obtain rfl := Option.some.inj h
        obtain ⟨t, ht, rfl, -⟩ := of_ipv4? hfour
        rw [List.isEmpty_iff.mp hend, List.append_nil]
        exact .ipv4 ht
      · contradiction
    · split at h
      · rename_i ns r hsix
        split at h
        · rename_i hend
          obtain rfl := Option.some.inj h
          rw [List.isEmpty_iff.mp hend] at hsix
          exact .ipv6 (isIpv6_of_ipv6? hsix)
        · contradiction
      · contradiction
  · rintro (h | h)
    · obtain ⟨a, b, c, d, hfour⟩ := ipv4?_append h (r := []) nofun
      rw [List.append_nil] at hfour
      simp only [addressBits?, hfour]
      rfl
    · obtain ⟨ns, hsix⟩ := ipv6?_of_isIpv6 h
      simp only [addressBits?, h.ipv4?_eq_none, hsix]
      rfl

end CredentialEngine.Net
