import CredentialEngine.Key.Pair
import CredentialEngine.Text.Blank
import CredentialEngine.Text.Word

/-!
# Credential bundles

A bundle is the text that hands a user its token and seed. Reading finds the two blocks by the line
that opens them and takes the next line that is not blank; everything else is free text.
-/
namespace CredentialEngine.Key

structure Bundle where
  token : String
  seed : String
  deriving DecidableEq

namespace Bundle

def tokenOpening : String := "-----BEGIN NATS USER JWT-----"

def tokenClosing : String := "------END NATS USER JWT------"

def seedOpening : String := "-----BEGIN USER NKEY SEED-----"

def seedClosing : String := "------END USER NKEY SEED------"

inductive Defect where
  | noToken
  | noSeed
  | badSeed
  deriving DecidableEq, Repr

def Defect.message : Defect → String
  | .noToken => "Credentials contain no user JWT block"
  | .noSeed => "Credentials contain no nkey seed block"
  | .badSeed => "Credentials carry an invalid user seed"

def lines (b : Bundle) : List String :=
  [tokenOpening, b.token, tokenClosing, "",
    "************************* IMPORTANT *************************",
    "NKEY Seed printed below can be used to sign and prove identity.",
    "NKEYs are sensitive and should be treated as secrets.", "",
    seedOpening, b.seed, seedClosing, "",
    "*************************************************************"]

def format (b : Bundle) : String :=
  String.join (b.lines.map (· ++ "\n"))

/-- The lines of a text, split at line feeds; a text that ends in one has no further line. -/
def splitLines : List Char → List (List Char)
  | [] => []
  | c :: cs =>
    if c = '\n' then [] :: splitLines cs
    else
      match splitLines cs with
      | [] => [[c]]
      | l :: ls => (c :: l) :: ls

/-- The first line that is not blank after the line that starts with the marker. A line of dashes
there is no payload. -/
def blockAfter? (marker : String) (trimmed : List (List Char)) : Option String :=
  match trimmed.dropWhile fun l => !marker.toList.isPrefixOf l with
  | [] => none
  | _ :: rest =>
    match rest.find? fun l => !l.isEmpty with
    | none => none
    | some l => if ['-', '-', '-'].isPrefixOf l then none else some (String.ofList l)

/-- A user seed, blanks around it ignored. -/
def isUserSeed (seed : String) : Bool :=
  match Pair.ofSeedText (Text.trim seed) with
  | .ok p => Pair.startsWith p.publicText userLead
  | .error _ => false

def parse (contents : String) : Except Defect Bundle :=
  let trimmed := (splitLines contents.toList).map Text.trimChars
  match blockAfter? tokenOpening trimmed with
  | none => .error .noToken
  | some token =>
    match blockAfter? seedOpening trimmed with
    | none => .error .noSeed
    | some seed => if isUserSeed seed then .ok ⟨token, seed⟩ else .error .badSeed

/-- The characters that a cluster's reader takes for part of a token. -/
def isTokenChar (c : Char) : Bool :=
  Text.isWordChar c || c == '-' || c == '.' || c == '='

/-- Whether a cluster's reader finds both blocks in the text of the bundle. -/
def isPresentable (b : Bundle) : Bool :=
  b.token.toList.all isTokenChar

end Bundle

end CredentialEngine.Key
