import WasmTyping.Json.Token

/-!
# Reading JSON

Tokens are taken one at a time. The containers that are open at a token are kept in a list, so that
nesting is not limited.
-/

namespace WasmTyping.Json

inductive Open where
  | array (items : List Json)
  | object (fields : List (Text × Json))
  | member (fields : List (Text × Json)) (key : Text)

inductive Awaited where
  | value
  | firstItem
  | firstKey
  | key
  | colon
  -- The value is complete, and what contains it goes on or ends.
  | follower (done : Json)

structure Reader where
  awaited : Awaited := .value
  opened : List Open := []

namespace Reader

def begin (opened : List Open) : Token → Option Reader
  | .null => some ⟨.follower .null, opened⟩
  | .bool b => some ⟨.follower (.bool b), opened⟩
  | .number n => some ⟨.follower (.number n), opened⟩
  | .string t => some ⟨.follower (.string t), opened⟩
  | .openBracket => some ⟨.firstItem, .array [] :: opened⟩
  | .openBrace => some ⟨.firstKey, .object [] :: opened⟩
  | _ => none

def follow (done : Json) : List Open → Token → Option Reader
  | .array items :: opened, .comma => some ⟨.value, .array (done :: items) :: opened⟩
  | .array items :: opened, .closeBracket =>
    some ⟨.follower (.array (done :: items).reverse), opened⟩
  | .member fields key :: opened, .comma => some ⟨.key, .object ((key, done) :: fields) :: opened⟩
  | .member fields key :: opened, .closeBrace =>
    some ⟨.follower (.object ((key, done) :: fields).reverse), opened⟩
  | _, _ => none

def take (r : Reader) (t : Token) : Option Reader :=
  match r.awaited, r.opened, t with
  | .value, opened, t => begin opened t
  | .firstItem, .array _ :: opened, .closeBracket => some ⟨.follower (.array []), opened⟩
  | .firstItem, opened, t => begin opened t
  | .firstKey, .object _ :: opened, .closeBrace => some ⟨.follower (.object []), opened⟩
  | .firstKey, .object fields :: opened, .string key => some ⟨.colon, .member fields key :: opened⟩
  | .key, .object fields :: opened, .string key => some ⟨.colon, .member fields key :: opened⟩
  | .colon, opened, .colon => some ⟨.value, opened⟩
  | .follower done, opened, t => follow done opened t
  | _, _, _ => none

def result? (r : Reader) : Option Json :=
  match r.awaited, r.opened with
  | .follower done, [] => some done
  | _, _ => none

end Reader

def ofTokens? (tokens : List Token) : Option Json :=
  (tokens.foldlM Reader.take {}).bind Reader.result?

def parse? (text : String) : Option Json := (tokens? text).bind ofTokens?

end WasmTyping.Json
