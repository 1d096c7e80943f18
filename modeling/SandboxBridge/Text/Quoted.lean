import SandboxBridge.Text.Printable

/-!
Text between double quotes for diagnostics. Whatever a reader could not see or would misread is
escaped: quotes, backslashes, controls, characters without a visible form, and characters that would
merge with the one before them.
-/

namespace SandboxBridge.Text

def braced (c : Char) : String :=
  "\\u\x7b" ++ String.ofList (Nat.toDigits 16 c.toNat) ++ "\x7d"

def escaped (c : Char) : String :=
  if c = '\x00' then "\\0"
  else if c = '\t' then "\\t"
  else if c = '\n' then "\\n"
  else if c = '\r' then "\\r"
  else if c = '"' then "\\\""
  else if c = '\\' then "\\\\"
  else if isExtendingMark c || !isPrintable c then braced c
  else c.toString

def quoted (s : String) : String :=
  s.foldl (fun text c => text ++ escaped c) "\"" ++ "\""

def quotedOption : Option String → String
  | none => "None"
  | some s => s!"Some({quoted s})"

end SandboxBridge.Text
