import Mnemo.Core.Basic
import Mnemo.Core.Json

/-!
# Validation of identity cores

A core is an object whose top-level keys are on a list, and no key at any depth contains one of the
words that point to a user.
-/

namespace Mnemo
namespace Agent

/-- The keys which a core may have at its top level. -/
def allowedTopLevel : List String :=
  ["mission", "style", "boundaries", "capabilities", "values", "persona"]

/-- What no key of a core may contain. -/
def forbiddenSubstrings : List String :=
  ["user", "session", "episode", "external_id", "email", "phone", "address"]

/-- Whether a key contains a forbidden word, in any case of its letters. -/
def isForbiddenKey (key : String) : Bool :=
  forbiddenSubstrings.any fun token => Text.occursIn token (Text.toAsciiLowercase key)

mutual

/-- Look for forbidden keys in a value at a path. -/
def visit (path : String) : Json → Except MnemoError Unit
  | .object fields => visitFields path fields
  | .array items => visitItems path 0 items
  | _ => .ok ()

def visitFields (path : String) : List (String × Json) → Except MnemoError Unit
  | [] => .ok ()
  | (key, value) :: fields =>
      if isForbiddenKey key then
        .error (.validation ("identity core contains forbidden key at " ++ path ++ key))
      else do
        visit (path ++ key ++ "/") value
        visitFields path fields

def visitItems (path : String) (index : Nat) : List Json → Except MnemoError Unit
  | [] => .ok ()
  | item :: items => do
      visit (path ++ "[" ++ toString index ++ "]/") item
      visitItems path (index + 1) items

end

/-- The first key of an object which is not allowed at the top level. -/
def disallowedKey : Json → Option String
  | .object fields => (fields.map Prod.fst).find? fun key => !allowedTopLevel.contains key
  | _ => none

/-- The guard against identity cores that carry user data. -/
def validateIdentityCore (core : Json) : Except MnemoError Unit :=
  if !core.isObject then .error (.validation "identity core must be a JSON object")
  else
    match disallowedKey core with
    | some key => .error (.validation ("identity core key '" ++ key ++ "' is not allowed"))
    | none => visit "core/" core

/-- A core which the guard lets pass. -/
def CleanCore (core : Json) : Prop := validateIdentityCore core = .ok ()

instance CleanCore.decidable (core : Json) : Decidable (CleanCore core) :=
  match validated : validateIdentityCore core with
  | .ok () => .isTrue validated
  | .error error => .isFalse fun clean => by cases validated.symm.trans clean

theorem cleanCore_empty : CleanCore (.object []) := rfl

/-! ## Keys at every depth -/

mutual

/-- The keys at every depth of a value. -/
def allKeys : Json → List String
  | .object fields => fieldKeys fields
  | .array items => itemKeys items
  | _ => []

def fieldKeys : List (String × Json) → List String
  | [] => []
  | (key, value) :: fields => key :: (allKeys value ++ fieldKeys fields)

def itemKeys : List Json → List String
  | [] => []
  | item :: items => allKeys item ++ itemKeys items

end

end Agent
end Mnemo
