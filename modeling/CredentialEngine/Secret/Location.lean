/-!
# Addresses of secrets
-/
namespace CredentialEngine.Secret

structure Location where
  space : String
  name : String
  deriving DecidableEq, Repr, Inhabited

def Location.text (l : Location) : String :=
  l.space ++ "/" ++ l.name

end CredentialEngine.Secret
