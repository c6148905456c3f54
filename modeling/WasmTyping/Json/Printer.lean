import WasmTyping.Json.Basic

/-!
# Writing JSON

Values are written without blanks. In strings only what must be escaped is.
-/

namespace WasmTyping.Json

def hexChar (n : Nat) : Char := if n < 10 then Char.ofNat (0x30 + n) else Char.ofNat (0x57 + n)

def escapedChar (c : Char) : List Char :=
  match c with
  | '"' => ['\\', '"']
  | '\\' => ['\\', '\\']
  | '\n' => ['\\', 'n']
  | '\r' => ['\\', 'r']
  | '\t' => ['\\', 't']
  | c =>
    if c.toNat = 0x08 then ['\\', 'b']
    else if c.toNat = 0x0C then ['\\', 'f']
    else if c.toNat < 0x20 then
      ['\\', 'u', '0', '0', hexChar (c.toNat / 16), hexChar (c.toNat % 16)]
    else [c]

def quoted : Text → String
  | some s => "\"" ++ String.ofList (s.toList.flatMap escapedChar) ++ "\""
  | none => "\"\\ud800\""

def Number.text : Number → String
  | .integer negative n => (if negative then "-" else "") ++ n.repr
  | .decimal negative n e =>
    (if negative then "-" else "") ++ n.repr ++ (if e < 0 then "e-" else "e") ++ e.natAbs.repr

mutual

def write (out : String) : Json → String
  | .null => out ++ "null"
  | .bool b => out ++ (if b then "true" else "false")
  | .number n => out ++ n.text
  | .string t => out ++ quoted t
  | .array [] => out ++ "[]"
  | .array (item :: items) => writeItems (write (out ++ "[") item) items ++ "]"
  | .object [] => out ++ "\x7b\x7d"
  | .object ((key, value) :: fields) =>
    writeFields (write (out ++ "\x7b" ++ quoted key ++ ":") value) fields ++ "\x7d"

def writeItems (out : String) : List Json → String
  | [] => out
  | item :: items => writeItems (write (out ++ ",") item) items

def writeFields (out : String) : List (Text × Json) → String
  | [] => out
  | (key, value) :: fields =>
    writeFields (write (out ++ "," ++ quoted key ++ ":") value) fields

end

def text (j : Json) : String := write "" j

end WasmTyping.Json
