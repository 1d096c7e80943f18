/-!
JSON text written out: strings with the escapes that JSON needs, and documents indented by two
spaces a level.
-/

namespace SandboxBridge.Json

def unitText (n : Nat) : String :=
  let digits := Nat.toDigits 16 n
  String.ofList (List.replicate (4 - digits.length) '0' ++ digits)

/-- Quotes, backslashes and control characters are escaped, the latter by name where JSON has one.
-/
def escaped (c : Char) : String :=
  if c = '"' then "\\\""
  else if c = '\\' then "\\\\"
  else if c = '\x08' then "\\b"
  else if c = '\t' then "\\t"
  else if c = '\n' then "\\n"
  else if c = '\x0c' then "\\f"
  else if c = '\r' then "\\r"
  else if c.toNat < 0x20 then "\\u" ++ unitText c.toNat
  else c.toString

def stringText (s : String) : String :=
  s.foldl (fun text c => text ++ escaped c) "\"" ++ "\""

def boolText (b : Bool) : String :=
  if b then "true" else "false"

def objectLines (fields : List (String × String)) : String :=
  let lines := fields.map fun (name, value) => "  " ++ stringText name ++ ": " ++ value
  "\x7b\n" ++ ",\n".intercalate lines ++ "\n\x7d"

end SandboxBridge.Json
