import SandboxBridge.Memory

/-!
Strings across the boundary. Decoding is strict: malformed UTF-8 fails. Encoding takes its space
from the module's allocator. Where blocks can be resized, it counts on ASCII first: the first
block has room for the ASCII prefix and one byte for each character after it, is grown to the
worst case when there are such characters, and shrunk to the exact length at the end.
-/

namespace SandboxBridge.Transfer

structure Extent where
  start : Nat
  length : Nat
  deriving DecidableEq, Repr

def decode (start length : Nat) : Memory.Action String := do
  match String.fromUTF8? (← Memory.readBytes start length) with
  | some s => return s
  | none => throw .malformedUtf8

/-- What encoding needs from its surroundings: the module's allocator and its memory. -/
structure Provider (σ : Type) where
  malloc : Nat → ExceptT Error (StateM σ) Nat
  /-- From the block, its size and its new size to the block's new place. -/
  realloc : Option (Nat → Nat → Nat → ExceptT Error (StateM σ) Nat)
  /-- Writes bytes to the memory as it is now. -/
  write : Nat → ByteArray → ExceptT Error (StateM σ) Unit
  /-- Told, before a block grows, how much is written, how large it is and how large it will be. -/
  growing : Nat → Nat → Nat → StateM σ Unit

def maxCharLength : Nat :=
  4

def checkLength (n : Nat) : Except Error Nat :=
  if n < UInt32.size then .ok n else .error .stringTooLong

def isAscii (c : Char) : Bool :=
  c.toNat < 128

def asciiLength (s : String) : Nat :=
  (s.toList.takeWhile isAscii).length

variable {σ : Type}

/-- Encodes into one block of the exact length. -/
def encodeExact (provider : Provider σ) (s : String) : ExceptT Error (StateM σ) Extent := do
  let length ← checkLength s.utf8ByteSize
  let start ← provider.malloc length
  provider.write start s.toUTF8
  return ⟨start, length⟩

/-- Encodes a string with `ascii` ASCII characters before its first other one. -/
def encodeGrowing (provider : Provider σ) (realloc : Nat → Nat → Nat → ExceptT Error (StateM σ) Nat)
    (s : String) (ascii : Nat) : ExceptT Error (StateM σ) Extent := do
  let written ← checkLength ascii
  let remaining ← checkLength (s.length - ascii)
  let capacity ← checkLength (written + remaining)
  let start ← provider.malloc capacity
  provider.write start (s.toUTF8.extract 0 ascii)
  let worst ← checkLength (remaining * maxCharLength + written)
  provider.growing written capacity worst
  let start ← realloc start capacity worst
  if UInt32.size ≤ start + written then throw .offsetOverflow
  let rest := s.toUTF8.extract ascii s.utf8ByteSize
  provider.write (start + written) rest
  let length := written + (← checkLength rest.size)
  if length = worst then
    return ⟨start, length⟩
  else
    return ⟨← realloc start worst length, length⟩

def encode (provider : Provider σ) (asciiFirst : Bool) (s : String) :
    ExceptT Error (StateM σ) Extent :=
  match provider.realloc with
  | none => encodeExact provider s
  | some realloc =>
    if asciiFirst then
      let ascii := asciiLength s
      if ascii = s.utf8ByteSize then encodeExact provider s
      else encodeGrowing provider realloc s ascii
    else encodeExact provider s

end SandboxBridge.Transfer
