import CredentialEngine.Json.Reader
import CredentialEngine.Json.Writer
import Mathlib.Algebra.Group.Int.Defs
import Mathlib.Algebra.Group.Nat.Defs

/-!
# Layouts of JSON texts

The compact and the indented layout differ only in the blanks between tokens. One layout over a
`Spacing` covers both, so that what is read back need be shown only once.
-/
namespace CredentialEngine.Json

/-- The blanks that a layout puts between tokens. -/
structure Spacing where
  /-- Before an item at a nesting level, and before the bracket that closes a level. -/
  line : Nat → List Char
  /-- After the colon of a member. -/
  colon : List Char
  line_blank : ∀ n, ∀ c ∈ line n, isSpace c = true
  colon_blank : ∀ c ∈ colon, isSpace c = true

def Spacing.none : Spacing where
  line _ := []
  colon := []
  line_blank := by simp
  colon_blank := by simp

def Spacing.indented : Spacing where
  line := lineBreak
  colon := [' ']
  line_blank n c hc := by
    rcases List.mem_cons.mp hc with rfl | hc
    · decide
    · obtain ⟨-, rfl⟩ := List.mem_replicate.mp hc
      decide
  colon_blank c hc := by
    obtain rfl := List.mem_singleton.mp hc
    decide

mutual

/-- The text of a value at a nesting level. -/
def chars (sp : Spacing) (n : Nat) : Json → List Char
  | .arr [] => ['[', ']']
  | .arr (v :: vs) => '[' :: (sp.line (n + 1) ++ (chars sp (n + 1) v ++ itemChars sp n vs))
  | .obj [] => ['\x7b', '\x7d']
  | .obj ((k, v) :: ms) =>
    '\x7b' :: (sp.line (n + 1) ++ (stringText k ++ ':' :: (sp.colon ++
      (chars sp (n + 1) v ++ memberChars sp n ms))))
  | v => atomText v

/-- The items after the first, with the closing bracket. -/
def itemChars (sp : Spacing) (n : Nat) : List Json → List Char
  | [] => sp.line n ++ [']']
  | v :: vs => ',' :: (sp.line (n + 1) ++ (chars sp (n + 1) v ++ itemChars sp n vs))

/-- The members after the first, with the closing brace. -/
def memberChars (sp : Spacing) (n : Nat) : List (String × Json) → List Char
  | [] => sp.line n ++ ['\x7d']
  | (k, v) :: ms =>
    ',' :: (sp.line (n + 1) ++ (stringText k ++ ':' :: (sp.colon ++
      (chars sp (n + 1) v ++ memberChars sp n ms))))

end

mutual

theorem compactChars_eq (n : Nat) : ∀ v, compactChars v = chars .none n v
  | .arr [] => by rw [compactChars, chars]
  | .arr (v :: vs) => by
    rw [compactChars, chars, compactChars_eq (n + 1) v, compactItems_eq n vs]
    rfl
  | .obj [] => by rw [compactChars, chars]
  | .obj ((k, v) :: ms) => by
    rw [compactChars, chars, compactChars_eq (n + 1) v, compactMembers_eq n ms]
    rfl
  | .null | .bool _ | .int _ | .fraction | .str _ | .numbered _ | .unreadable => by
    simp [compactChars, chars]

theorem compactItems_eq (n : Nat) : ∀ vs, compactItems vs = itemChars .none n vs
  | [] => by rw [compactItems, itemChars]; rfl
  | v :: vs => by
    rw [compactItems, itemChars, compactChars_eq (n + 1) v, compactItems_eq n vs]
    rfl

theorem compactMembers_eq (n : Nat) : ∀ ms, compactMembers ms = memberChars .none n ms
  | [] => by rw [compactMembers, memberChars]; rfl
  | (k, v) :: ms => by
    rw [compactMembers, memberChars, compactChars_eq (n + 1) v, compactMembers_eq n ms]
    rfl

end

mutual

theorem prettyChars_eq (n : Nat) : ∀ v, prettyChars n v = chars .indented n v
  | .arr [] => by rw [prettyChars, chars]
  | .arr (v :: vs) => by
    rw [prettyChars, chars, prettyChars_eq (n + 1) v, prettyItems_eq n vs, List.append_assoc]
    rfl
  | .obj [] => by rw [prettyChars, chars]
  | .obj ((k, v) :: ms) => by
    rw [prettyChars, chars, prettyChars_eq (n + 1) v, prettyMembers_eq n ms, List.append_assoc]
    rfl
  | .null | .bool _ | .int _ | .fraction | .str _ | .numbered _ | .unreadable => by
    simp [prettyChars, chars]

theorem prettyItems_eq (n : Nat) : ∀ vs, prettyItems n vs = itemChars .indented n vs
  | [] => by rw [prettyItems, itemChars]; rfl
  | v :: vs => by
    rw [prettyItems, itemChars, prettyChars_eq (n + 1) v, prettyItems_eq n vs, List.append_assoc]
    rfl

theorem prettyMembers_eq (n : Nat) : ∀ ms, prettyMembers n ms = memberChars .indented n ms
  | [] => by rw [prettyMembers, memberChars]; rfl
  | (k, v) :: ms => by
    rw [prettyMembers, memberChars, prettyChars_eq (n + 1) v, prettyMembers_eq n ms,
      List.append_assoc]
    rfl

end

/-! ## Values that a text can show -/

/-- The numbers from here on are too large for binary64, and the reader refuses them. -/
@[irreducible] def intLimit : Nat := Nat.pow 2 1024 - Nat.pow 2 970

theorem two_pow_64_lt_intLimit : 2 ^ 64 < intLimit := by
  unfold intLimit
  decide +kernel

mutual

/-- A value with a text of its own: it is built of nulls, flags, integers within the limit, texts,
arrays and plain objects. -/
def isWritable : Json → Bool
  | .int n => n.natAbs < intLimit
  | .arr vs => areWritable vs
  | .obj ms => membersWritable ms
  | .fraction | .numbered _ | .unreadable => false
  | .null | .bool _ | .str _ => true

def areWritable : List Json → Bool
  | [] => true
  | v :: vs => isWritable v && areWritable vs

def membersWritable : List (String × Json) → Bool
  | [] => true
  | (_, v) :: ms => isWritable v && membersWritable ms

end

theorem areWritable_iff {vs : List Json} : areWritable vs = true ↔ ∀ v ∈ vs, v.isWritable = true := by
  induction vs with
  | nil => simp [areWritable]
  | cons v vs ih => simp [areWritable, ih]

theorem membersWritable_iff {ms : List (String × Json)} :
    membersWritable ms = true ↔ ∀ m ∈ ms, m.2.isWritable = true := by
  induction ms with
  | nil => simp [membersWritable]
  | cons m ms ih => simp [membersWritable, ih]

end CredentialEngine.Json
