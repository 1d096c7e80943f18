/-!
Reading JSON text into a tree. The tree keeps what a reader of typed fields still has to judge:
names that occur twice, numbers that are no plain integers, and strings whose escapes name half a
surrogate pair, which only a reader that wants the text refuses.
-/

namespace SandboxBridge.Json

/-- A JSON document. A string is `none` when its escapes do not spell scalar values, and a number is
`none` when it is anything but an unsigned integer of at most twenty digits, room for 64 bits. -/
inductive Document where
  | null
  | bool (value : Bool)
  | number (value : Option Nat)
  | string (value : Option String)
  | array (items : List Document)
  | object (fields : List (Option String × Document))

def isBlank (c : Char) : Bool :=
  c = ' ' || c = '\n' || c = '\t' || c = '\r'

def skipBlanks (text : List Char) : List Char :=
  text.dropWhile isBlank

def hexDigit? (c : Char) : Option Nat :=
  if '0' ≤ c ∧ c ≤ '9' then some (c.toNat - '0'.toNat)
  else if 'a' ≤ c ∧ c ≤ 'f' then some (c.toNat - 'a'.toNat + 10)
  else if 'A' ≤ c ∧ c ≤ 'F' then some (c.toNat - 'A'.toNat + 10)
  else none

def hexUnit? (a b c d : Char) : Option Nat := do
  return (((← hexDigit? a) * 16 + (← hexDigit? b)) * 16 + (← hexDigit? c)) * 16 + (← hexDigit? d)

/-- One element of a string: a character, or a 16-bit unit given by its number. -/
inductive Piece where
  | char (c : Char)
  | unit (n : Nat)

def namedEscape? : Char → Option Char
  | '"' => some '"'
  | '\\' => some '\\'
  | '/' => some '/'
  | 'b' => some '\x08'
  | 'f' => some '\x0c'
  | 'n' => some '\n'
  | 'r' => some '\r'
  | 't' => some '\t'
  | _ => none

/-- The pieces of a string up to its closing quote, and the text after that. -/
def readPieces : List Char → Option (List Piece × List Char)
  | [] => none
  | '"' :: rest => some ([], rest)
  | '\\' :: 'u' :: a :: b :: c :: d :: rest => do
    let unit ← hexUnit? a b c d
    let (pieces, after) ← readPieces rest
    return (.unit unit :: pieces, after)
  | '\\' :: name :: rest => do
    let c ← namedEscape? name
    let (pieces, after) ← readPieces rest
    return (.char c :: pieces, after)
  | c :: rest =>
    if c.toNat < 0x20 ∨ c = '\\' then none
    else do
      let (pieces, after) ← readPieces rest
      return (.char c :: pieces, after)

def isHighSurrogate (n : Nat) : Bool :=
  0xD800 ≤ n && n < 0xDC00

def isLowSurrogate (n : Nat) : Bool :=
  0xDC00 ≤ n && n < 0xE000

/-- The characters that pieces spell. Surrogates count only in pairs, high before low. -/
def spell? : List Piece → Option (List Char)
  | [] => some []
  | .char c :: rest => (spell? rest).map (c :: ·)
  | .unit high :: .unit low :: rest =>
    if isHighSurrogate high then
      if isLowSurrogate low then
        (spell? rest).map (Char.ofNat (0x10000 + (high - 0xD800) * 0x400 + (low - 0xDC00)) :: ·)
      else none
    else if isLowSurrogate high then none
    else (spell? (.unit low :: rest)).map (Char.ofNat high :: ·)
  | .unit n :: rest =>
    if isHighSurrogate n || isLowSurrogate n then none
    else (spell? rest).map (Char.ofNat n :: ·)

def readString (text : List Char) : Option (Option String × List Char) :=
  (readPieces text).map fun (pieces, rest) => ((spell? pieces).map String.ofList, rest)

def readDigits (text : List Char) : Option (List Char × List Char) :=
  match text.span Char.isDigit with
  | ([], _) => none
  | found => some found

def readInteger : List Char → Option (List Char × List Char)
  | '0' :: rest =>
    match rest with
    | c :: _ => if c.isDigit then none else some (['0'], rest)
    | [] => some (['0'], [])
  | text => readDigits text

def skipFraction : List Char → Option (List Char)
  | '.' :: rest => (readDigits rest).map (·.2)
  | text => some text

def skipSign : List Char → List Char
  | '+' :: rest | '-' :: rest => rest
  | text => text

def skipExponent : List Char → Option (List Char)
  | 'e' :: rest | 'E' :: rest => (readDigits (skipSign rest)).map (·.2)
  | text => some text

def digitsValue (digits : List Char) : Nat :=
  digits.foldl (fun n c => n * 10 + (c.toNat - '0'.toNat)) 0

/-- Whether a number goes on after its integer part, with a fraction or an exponent. -/
def isContinued : List Char → Bool
  | c :: _ => c = '.' || c = 'e' || c = 'E'
  | [] => false

def maxDigits : Nat := 20

def readNumber (text : List Char) : Option (Option Nat × List Char) := do
  let (negative, unsigned) := match text with
    | '-' :: rest => (true, rest)
    | _ => (false, text)
  let (digits, rest) ← readInteger unsigned
  let after ← skipExponent (← skipFraction rest)
  let isPlain := !negative && !isContinued rest && digits.length ≤ maxDigits
  return (if isPlain then some (digitsValue digits) else none, after)

mutual

/-- One value, blanks before it allowed. An item and a bracket each take one unit of `depth`. -/
def readValue (depth : Nat) (text : List Char) : Option (Document × List Char) :=
  match depth, skipBlanks text with
  | _, '"' :: rest => (readString rest).map fun (s, after) => (.string s, after)
  | _, 't' :: 'r' :: 'u' :: 'e' :: rest => some (.bool true, rest)
  | _, 'f' :: 'a' :: 'l' :: 's' :: 'e' :: rest => some (.bool false, rest)
  | _, 'n' :: 'u' :: 'l' :: 'l' :: rest => some (.null, rest)
  | depth + 1, '[' :: rest =>
    match skipBlanks rest with
    | ']' :: after => some (.array [], after)
    | _ => (readItems depth rest).map fun (items, after) => (.array items, after)
  | depth + 1, '{' :: rest =>
    match skipBlanks rest with
    | '}' :: after => some (.object [], after)
    | _ => (readFields depth rest).map fun (fields, after) => (.object fields, after)
  | _, start => (readNumber start).map fun (n, after) => (.number n, after)
termination_by depth

def readItems (depth : Nat) (text : List Char) : Option (List Document × List Char) :=
  match depth with
  | 0 => none
  | depth + 1 => do
    let (item, rest) ← readValue depth text
    match skipBlanks rest with
    | ',' :: more =>
      let (items, after) ← readItems depth more
      return (item :: items, after)
    | ']' :: after => return ([item], after)
    | _ => none
termination_by depth

def readFields (depth : Nat) (text : List Char) :
    Option (List (Option String × Document) × List Char) :=
  match depth, skipBlanks text with
  | depth + 1, '"' :: start => do
    let (name, rest) ← readString start
    match skipBlanks rest with
    | ':' :: body =>
      let (value, rest) ← readValue depth body
      match skipBlanks rest with
      | ',' :: more =>
        let (fields, after) ← readFields depth more
        return ((name, value) :: fields, after)
      | '}' :: after => return ([(name, value)], after)
      | _ => none
    | _ => none
  | _, _ => none
termination_by depth

end

/-- Reads a whole text. A character that is read takes at most two units of depth, so twice the
length of the text is enough. -/
def Document.ofString? (s : String) : Option Document :=
  let text := s.toList
  match readValue (2 * text.length + 2) text with
  | some (document, rest) => if (skipBlanks rest).isEmpty then some document else none
  | none => none

end SandboxBridge.Json
