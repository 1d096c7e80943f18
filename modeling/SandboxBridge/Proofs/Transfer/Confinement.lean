import Mathlib.Data.List.TakeWhile
import SandboxBridge.Proofs.Transfer.Decoding

/-!
Encoding over an allocator that has promised nothing: at any call it may answer with any address,
fail, or put another memory in the place of the old one. Even then encoding resizes only the block
handed out last, from the size that it was asked for with, writes only into that block, and no
length that it adds up leaves 32 bits.
-/

namespace SandboxBridge.Transfer

variable {σ α β : Type}

structure Write where
  start : Nat
  data : ByteArray
  before : Memory
  result : Except Error Unit
  after : Memory

inductive Event where
  | called (grant : Grant)
  | wrote (write : Write)

namespace Event

def before : Event → Memory
  | called grant => grant.before
  | wrote write => write.before

def after : Event → Memory
  | called grant => grant.after
  | wrote write => write.after

end Event

/-- Calls of the allocator among events, the latest first like these. -/
def grants : List Event → List Grant
  | [] => []
  | .called grant :: earlier => grant :: grants earlier
  | .wrote _ :: earlier => grants earlier

/-- What was written, or would have been, the latest first. -/
def pieces : List Event → List ByteArray
  | [] => []
  | .called _ :: earlier => pieces earlier
  | .wrote write :: earlier => write.data :: pieces earlier

def totalSize : List ByteArray → Nat
  | [] => 0
  | piece :: others => piece.size + totalSize others

theorem totalSize_cons (piece : ByteArray) (pieces : List ByteArray) :
    totalSize (piece :: pieces) = piece.size + totalSize pieces :=
  rfl

def Grant.Covers (grant : Grant) (address : Nat) : Prop :=
  ∃ start ∈ grant.place, start ≤ address ∧ address < start + grant.size

namespace Write

def Covers (write : Write) (address : Nat) : Prop :=
  write.start ≤ address ∧ address < write.start + write.data.size

/-- The write leaves everything outside its range as it was, and all as it was if it is refused. -/
structure Framed (write : Write) : Prop where
  current : write.after.current = write.before.current
  others : ∀ buffer ≠ write.before.current,
    write.after.bufferAt buffer = write.before.bufferAt buffer
  bytes : ∀ address, ¬write.Covers address →
    write.after.byte? address = write.before.byte? address
  refused : ∀ e, write.result = .error e → write.after.buffers = write.before.buffers

def Within (write : Write) (grant : Grant) : Prop :=
  ∃ start ∈ grant.place,
    start ≤ write.start ∧ write.start + write.data.size ≤ start + grant.size

end Write

/-- The event keeps to the block of the last call before it. -/
def Event.Confined (earlier : List Event) : Event → Prop
  | called grant => grant.Proper (grants earlier)
  | wrote write => write.Framed ∧ ∃ last ∈ (grants earlier).head?, write.Within last

/-- The events have made the last memory of the first one, with nothing in between, and each kept to
the block of the last call before it. -/
inductive Orderly (first : Memory) : List Event → Memory → Prop
  | start : Orderly first [] first
  | step {event : Event} {earlier : List Event} (before : Orderly first earlier event.before)
    (confined : event.Confined earlier) : Orderly first (event :: earlier) event.after

namespace Orderly

variable {first last : Memory} {events : List Event} {address : Nat}

theorem covered (orderly : Orderly first events last) {write : Write}
    (wrote : .wrote write ∈ events)
    (changed : write.after.byte? address ≠ write.before.byte? address) :
    ∃ grant ∈ grants events, grant.Covers address := by
  induction orderly with
  | start => cases wrote
  | @step event earlier before confined ih =>
    rcases List.mem_cons.mp wrote with rfl | early
    · obtain ⟨framed, grant, latest, start, placed, above, below⟩ := confined
      have inside : write.Covers address := by
        by_contra outside
        exact changed (framed.bytes address outside)
      exact ⟨grant, List.mem_of_mem_head? latest, start, placed, Nat.le_trans above inside.1,
        Nat.lt_of_lt_of_le inside.2 below⟩
    · obtain ⟨grant, member, covers⟩ := ih early
      cases event with
      | called other => exact ⟨grant, .tail _ member, covers⟩
      | wrote other => exact ⟨grant, member, covers⟩

/-- Outside the blocks that have been handed out, only calls of the allocator change a byte. -/
theorem untouched (orderly : Orderly first events last)
    (outside : ∀ grant ∈ grants events, ¬grant.Covers address)
    (same : ∀ grant ∈ grants events, grant.after.byte? address = grant.before.byte? address) :
    last.byte? address = first.byte? address := by
  induction orderly with
  | start => rfl
  | @step event earlier before confined ih =>
    cases event with
    | called grant =>
      have rest := ih (fun other member => outside other (.tail _ member))
        fun other member => same other (.tail _ member)
      exact (same grant (.head _)).trans rest
    | wrote write =>
      have kept : write.after.byte? address = write.before.byte? address := by
        by_contra changed
        obtain ⟨grant, member, covers⟩ :=
          covered (.step before confined) (.head _) changed
        exact outside grant member covers
      exact kept.trans (ih outside same)

end Orderly

/-- What encoding works on, and what has happened to the memory, the latest first. -/
structure Scene (σ : Type) where
  own : σ
  memory : Memory
  events : List Event := []

namespace Supplier

def observedCall (resized : Option Extent) (size : Nat)
    (work : σ → Memory → Except Error Nat × σ × Memory) :
    ExceptT Error (StateM (Scene σ)) Nat :=
  .mk fun w =>
    let (result, own, after) := work w.own w.memory
    (result, ⟨own, after, .called ⟨resized, size, w.memory, result, after⟩ :: w.events⟩)

def observedWrite (start : Nat) (data : ByteArray) : ExceptT Error (StateM (Scene σ)) Unit :=
  .mk fun w =>
    let (result, after) := (Memory.writeBytes start data).run w.memory
    (result, ⟨w.own, after, .wrote ⟨start, data, w.memory, result, after⟩ :: w.events⟩)

def observed (a : Supplier σ) (offersRealloc : Bool) : Provider (Scene σ) where
  malloc size := observedCall none size (a.malloc size)
  realloc :=
    if offersRealloc then
      some fun start oldSize newSize =>
        observedCall (some ⟨start, oldSize⟩) newSize (a.realloc start oldSize newSize)
    else none
  write := observedWrite
  growing _ _ _ := pure ()

end Supplier

/-! Work that obeys a law even when it fails. -/

/-- From scenes with `before`, the work leaves one with `after`, or it fails and leaves one with
`law`. -/
def Upholds (law before : Scene σ → Prop) (work : ExceptT Error (StateM (Scene σ)) α)
    (after : α → Scene σ → Prop) : Prop :=
  ∀ w, before w → match work.run w with
    | (.ok value, reached) => after value reached
    | (.error _, reached) => law reached

namespace Upholds

variable {law before : Scene σ → Prop} {after : α → Scene σ → Prop}

theorem pure {value : α} (ready : ∀ w, before w → after value w) :
    Upholds law before (Pure.pure value) after :=
  ready

theorem bind {work : ExceptT Error (StateM (Scene σ)) α}
    {next : α → ExceptT Error (StateM (Scene σ)) β} {last : β → Scene σ → Prop}
    (first : Upholds law before work after)
    (rest : ∀ value, Upholds law (after value) (next value) last) :
    Upholds law before (work >>= next) last := by
  intro w start
  have early := first w start
  rw [Work.run_bind]
  revert early
  generalize work.run w = done
  rcases done with ⟨e | value, reached⟩
  · exact id
  · exact rest value reached

theorem given {result : Except Error β} {next : β → ExceptT Error (StateM (Scene σ)) α}
    (lawful : ∀ w, before w → law w)
    (rest : ∀ value, result = .ok value → Upholds law before (next value) after) :
    Upholds law before (liftM result >>= next) after := by
  intro w start
  rw [Work.run_bind, Work.run_liftExcept]
  cases result with
  | ok value => exact rest value rfl w start
  | error e => exact lawful w start

theorem idle {next : Unit → ExceptT Error (StateM (Scene σ)) α}
    (rest : Upholds law before (next ()) after) :
    Upholds law before (liftM (Pure.pure () : StateM (Scene σ) Unit) >>= next) after :=
  rest

theorem refusing {refused : Prop} [Decidable refused] {e : Error}
    {next : β → ExceptT Error (StateM (Scene σ)) α} {work : ExceptT Error (StateM (Scene σ)) α}
    (lawful : ∀ w, before w → law w) (rest : Upholds law before work after) :
    Upholds law before (if refused then throw e >>= next else work) after := by
  split
  · exact lawful
  · exact rest

end Upholds

def frontBytes (s : String) : ByteArray :=
  s.toUTF8.extract 0 (asciiLength s)

def tailBytes (s : String) : ByteArray :=
  s.toUTF8.extract (asciiLength s) s.utf8ByteSize

/-- Nothing is written yet, or the whole string, or its ASCII front, or this and then the tail, and
the lengths together fit 32 bits. -/
structure Draft (s : String) (pieces : List ByteArray) : Prop where
  parts : pieces ∈ [[], [s.toUTF8], [frontBytes s], [tailBytes s, frontBytes s]]
  small : totalSize pieces < UInt32.size

variable {s : String} {memory : Memory} {start size : Nat} {written : List ByteArray}

structure Stage (memory : Memory) (written : List ByteArray) (w : Scene σ) : Prop where
  orderly : Orderly memory w.events w.memory
  written : pieces w.events = written

structure Holding (memory : Memory) (start size : Nat) (written : List ByteArray) (w : Scene σ) :
    Prop extends Stage memory written w where
  granted : ∃ last ∈ (grants w.events).head?, start ∈ last.place ∧ last.size = size

def Lawful (memory : Memory) (s : String) (w : Scene σ) : Prop :=
  ∃ written, Draft s written ∧ Stage memory written w

theorem Stage.lawful {w : Scene σ} (stage : Stage memory written w) (draft : Draft s written) :
    Lawful memory s w :=
  ⟨written, draft, stage⟩

theorem Stage.called {w : Scene σ} {grant : Grant} (stage : Stage memory written w)
    (same : grant.before = w.memory) (proper : grant.Proper (grants w.events)) (own : σ) :
    Stage memory written ⟨own, grant.after, .called grant :: w.events⟩ := by
  have before : Orderly memory w.events grant.before := by
    rw [same]
    exact stage.orderly
  exact ⟨@Orderly.step memory (.called grant) w.events before proper, stage.written⟩

theorem Stage.wrote {w : Scene σ} {write : Write} (stage : Stage memory written w)
    (same : write.before = w.memory) (framed : write.Framed)
    (within : ∃ last ∈ (grants w.events).head?, write.Within last) :
    Stage memory (write.data :: written) ⟨w.own, write.after, .wrote write :: w.events⟩ := by
  have before : Orderly memory w.events write.before := by
    rw [same]
    exact stage.orderly
  exact ⟨@Orderly.step memory (.wrote write) w.events before ⟨framed, within⟩,
    congrArg (write.data :: ·) stage.written⟩

theorem framed_writeBytes (m : Memory) (start : Nat) (data : ByteArray) :
    Write.Framed ⟨start, data, m, ((Memory.writeBytes start data).run m).1,
      ((Memory.writeBytes start data).run m).2⟩ := by
  obtain ⟨buffers, current⟩ := Memory.view_buffers m .bytes
  rw [Memory.run_writeBytes]
  cases checked : m.buffer.check start data.size with
  | error e =>
    refine ⟨current, fun buffer _ => Memory.view_bufferAt m .bytes buffer, fun address _ => ?_,
      fun _ _ => buffers⟩
    simp only [Memory.byte?, Memory.buffer_view]
  | ok _ =>
    obtain ⟨attached, fits⟩ := Memory.check_eq_ok checked
    refine ⟨current, fun buffer other => ?_, fun address outside => ?_, fun _ failed => ?_⟩
    · simp only [Memory.written, Memory.bufferAt, Array.getElem?_modify, Ne.symm other, ↓reduceIte]
    · exact (Memory.byte?_written attached fits address).trans (if_neg outside)
    · cases failed

namespace Supplier

variable (a : Supplier σ)

theorem upholds_call {resized : Option Extent} {work : σ → Memory → Except Error Nat × σ × Memory}
    {before : Scene σ → Prop} (draft : Draft s written)
    (stage : ∀ w, before w → Stage memory written w) (small : size < UInt32.size)
    (latest : ∀ w, before w → ∀ block ∈ resized, ∃ last ∈ (grants w.events).head?,
      block.start ∈ last.place ∧ last.size = block.length) :
    Upholds (Lawful memory s) before (observedCall resized size work)
      fun start => Holding memory start size written := by
  intro w ready
  have called (result : Except Error Nat) (own : σ) (after : Memory) :=
    (stage w ready).called
      (show Grant.before ⟨resized, size, w.memory, result, after⟩ = w.memory from rfl)
      ⟨small, latest w ready⟩ own
  simp only [observedCall, ExceptT.run_mk]
  rcases work w.own w.memory with ⟨e | start, own, after⟩
  · exact (called (.error e) own after).lawful draft
  · exact ⟨called (.ok start) own after, _, rfl, rfl, rfl⟩

theorem upholds_malloc (draft : Draft s written) (small : size < UInt32.size) :
    Upholds (Lawful memory s) (Stage memory written) (observedCall none size (a.malloc size))
      fun start => Holding memory start size written :=
  upholds_call draft (fun _ => id) small fun _ _ _ resized => by cases resized

theorem upholds_realloc {newSize : Nat} (draft : Draft s written) (small : newSize < UInt32.size) :
    Upholds (Lawful memory s) (Holding memory start size written)
      (observedCall (some ⟨start, size⟩) newSize (a.realloc start size newSize))
      fun moved => Holding memory moved newSize written :=
  upholds_call draft (fun _ holding => holding.toStage) small fun _ holding block same => by
    cases same
    exact holding.granted

theorem upholds_write {target : Nat} {data : ByteArray} (draft : Draft s (data :: written))
    (above : start ≤ target) (inside : target + data.size ≤ start + size) :
    Upholds (Lawful memory s) (Holding (σ := σ) memory start size written)
      (observedWrite target data) fun _ => Holding memory start size (data :: written) := by
  intro w holding
  obtain ⟨last, latest, placed, rfl⟩ := holding.granted
  have wrote := holding.toStage.wrote rfl (framed_writeBytes w.memory target data)
    ⟨last, latest, start, placed, above, inside⟩
  simp only [observedWrite, ExceptT.run_mk]
  revert wrote
  rcases (Memory.writeBytes target data).run w.memory with ⟨e | _, after⟩
  · exact fun wrote => wrote.lawful draft
  · exact fun wrote => ⟨wrote, last, latest, placed, rfl⟩

end Supplier

/-! The ways of encoding. -/

theorem draft_nil (s : String) : Draft s [] :=
  ⟨by simp, by decide⟩

theorem totalSize_whole (s : String) : totalSize [s.toUTF8] = s.utf8ByteSize := by
  rw [totalSize_cons]
  rfl

theorem totalSize_front (s : String) : totalSize [frontBytes s] = asciiLength s := by
  rw [totalSize_cons, frontBytes, size_front]
  rfl

theorem totalSize_parts (s : String) :
    totalSize [tailBytes s, frontBytes s] = s.utf8ByteSize := by
  obtain ⟨-, within, -⟩ := lengths_between s
  rw [totalSize_cons, totalSize_front, tailBytes, size_rest, Nat.sub_add_cancel within]

theorem draft_whole (fits : s.utf8ByteSize < UInt32.size) : Draft s [s.toUTF8] :=
  ⟨by simp, by rwa [totalSize_whole]⟩

theorem draft_front (small : asciiLength s < UInt32.size) : Draft s [frontBytes s] :=
  ⟨by simp, by rwa [totalSize_front]⟩

theorem draft_parts (fits : s.utf8ByteSize < UInt32.size) :
    Draft s [tailBytes s, frontBytes s] :=
  ⟨by simp, by rwa [totalSize_parts]⟩

structure Finished (memory : Memory) (s : String) (extent : Extent) (w : Scene σ) : Prop where
  lawful : Lawful memory s w
  granted : ∃ last ∈ (grants w.events).head?,
    extent.start ∈ last.place ∧ last.size = extent.length
  exact : extent.length = s.utf8ByteSize
  written : totalSize (pieces w.events) = s.utf8ByteSize

theorem Holding.finished {w : Scene σ} (holding : Holding memory start size written w)
    (draft : Draft s written) (exact : size = s.utf8ByteSize)
    (whole : totalSize written = s.utf8ByteSize) : Finished memory s ⟨start, size⟩ w :=
  ⟨holding.lawful draft, holding.granted, exact, by rw [holding.written, whole]⟩

variable (a : Supplier σ)

theorem upholds_encodeExact (offersRealloc : Bool) (s : String) :
    Upholds (Lawful memory s) (Stage memory []) (encodeExact (a.observed offersRealloc) s)
      (Finished memory s) := by
  apply Upholds.given fun _ stage => stage.lawful (draft_nil s)
  intro length checked
  obtain ⟨fits, rfl⟩ := checkLength_eq_ok checked
  apply (a.upholds_malloc (draft_nil s) fits).bind
  intro start
  have size : s.toUTF8.size = s.utf8ByteSize := rfl
  apply (Supplier.upholds_write (draft_whole fits) (Nat.le_refl _) (by omega)).bind
  intro _
  exact Upholds.pure fun _ holding =>
    holding.finished (draft_whole fits) rfl (totalSize_whole s)

theorem upholds_encodeGrowing (s : String) :
    Upholds (Lawful memory s) (Stage memory [])
      (encodeGrowing (a.observed true)
        (fun start oldSize newSize =>
          Supplier.observedCall (some ⟨start, oldSize⟩) newSize (a.realloc start oldSize newSize))
        s (asciiLength s))
      (Finished memory s) := by
  obtain ⟨-, within, longest⟩ := lengths_between s
  rw [worstLength, Nat.mul_comm] at longest
  have empty := draft_nil s
  have front := draft_front (s := s)
  have parts := draft_parts (s := s)
  have first : (frontBytes s).size = asciiLength s := size_front s
  have second : (tailBytes s).size = s.utf8ByteSize - asciiLength s := size_rest s
  have whole := totalSize_parts s
  unfold encodeGrowing
  rw [show s.toUTF8.extract 0 (asciiLength s) = frontBytes s from rfl,
    show s.toUTF8.extract (asciiLength s) s.utf8ByteSize = tailBytes s from rfl]
  generalize frontBytes s = early at *
  generalize tailBytes s = late at *
  generalize s.length - asciiLength s = remaining at *
  rw [← first] at within longest front second ⊢
  apply Upholds.given fun _ stage => stage.lawful empty
  intro written checked
  obtain ⟨short, rfl⟩ := checkLength_eq_ok checked
  apply Upholds.given fun _ stage => stage.lawful empty
  intro _ checked
  obtain ⟨-, rfl⟩ := checkLength_eq_ok checked
  apply Upholds.given fun _ stage => stage.lawful empty
  intro capacity checked
  obtain ⟨narrow, rfl⟩ := checkLength_eq_ok checked
  apply (a.upholds_malloc empty narrow).bind
  intro start
  apply (Supplier.upholds_write (front short) (Nat.le_refl _) (by omega)).bind
  intro _
  apply Upholds.given fun _ holding => holding.lawful (front short)
  intro worst checked
  -- The worst case bounds the real length, which is therefore never checked against 32 bits.
  obtain ⟨wide, rfl⟩ := checkLength_eq_ok checked
  have fits : s.utf8ByteSize < UInt32.size := Nat.lt_of_le_of_lt (by omega) wide
  have exact : early.size + late.size = s.utf8ByteSize := by omega
  apply Upholds.idle
  apply (a.upholds_realloc (front short) wide).bind
  intro moved
  apply Upholds.refusing fun _ holding => holding.lawful (front short)
  apply (Supplier.upholds_write (parts fits) (Nat.le_add_right _ _) (by omega)).bind
  intro _
  apply Upholds.given fun _ holding => holding.lawful (parts fits)
  intro _ checked
  obtain ⟨-, rfl⟩ := checkLength_eq_ok checked
  simp only [exact]
  split
  next same =>
    apply Upholds.pure
    intro w holding
    rw [← same] at holding
    exact holding.finished (parts fits) rfl whole
  next =>
    apply (a.upholds_realloc (parts fits) fits).bind
    intro moved
    exact Upholds.pure fun _ holding => holding.finished (parts fits) rfl whole

theorem upholds_encode (offersRealloc asciiFirst : Bool) (s : String) :
    Upholds (Lawful memory s) (Stage memory []) (encode (a.observed offersRealloc) asciiFirst s)
      (Finished memory s) := by
  cases offersRealloc with
  | false => exact upholds_encodeExact a false s
  | true =>
    change Upholds _ _ (if asciiFirst then _ else _) _
    split
    · split
      next => exact upholds_encodeExact a true s
      next => exact upholds_encodeGrowing a s
    · exact upholds_encodeExact a true s

theorem length_takeWhile_of_spells {text : List Char} {bytes : List UInt8}
    (spells : Utf8.Spells text bytes) :
    (bytes.takeWhile (·.toNat < 128)).length = plainLength text := by
  induction spells with
  | nil => rfl
  | @cons c text lead tail bytes sequence value shortest rest ih =>
    have first := Utf8.owed_eq_some_iff.mp sequence.complete
    have size := Utf8.needed_cases c.toNat
    by_cases ascii : isAscii c
    · have small : c.toNat < 128 := by simpa [isAscii] using ascii
      obtain rfl : tail = [] := List.eq_nil_of_length_eq_zero (by omega)
      rw [plainLength_cons_ascii ascii, List.nil_append, List.takeWhile_cons_of_pos,
        List.length_cons, ih]
      simp only [List.length_nil] at first
      simp only [decide_eq_true_eq]
      omega
    · have large : 128 ≤ c.toNat := by simpa [isAscii] using ascii
      rw [plainLength_cons_other ascii, List.takeWhile_cons_of_neg, List.length_nil]
      simp only [decide_eq_true_eq]
      omega

theorem asciiLength_eq_bytes (s : String) :
    asciiLength s = (s.toUTF8.data.toList.takeWhile (·.toNat < 128)).length := by
  have spells : Utf8.Spells s.toList s.toUTF8.data.toList :=
    fromUTF8?_eq_some_iff.mp (dif_pos s.isValidUTF8)
  exact (length_takeWhile_of_spells spells).symm

theorem size_ofList_takeWhile (text : List Char) :
    (String.ofList (text.takeWhile isAscii)).utf8ByteSize = plainLength text := by
  have ascii : ∀ c ∈ (String.ofList (text.takeWhile isAscii)).toList, isAscii c := by
    intro c member
    rw [String.toList_ofList] at member
    exact List.mem_takeWhile_imp member
  rw [← asciiLength_of_ascii ascii, asciiLength, String.toList_ofList, List.takeWhile_idem,
    plainLength]

theorem exists_cut (s : String) : ∃ first rest : String, s = first ++ rest ∧
    first.utf8ByteSize = asciiLength s ∧ rest.toUTF8 = tailBytes s ∧
    rest.length = s.length - asciiLength s := by
  have whole : s = .ofList (s.toList.takeWhile isAscii) ++
      .ofList (s.toList.dropWhile isAscii) := by
    rw [← String.ofList_append, List.takeWhile_append_dropWhile, String.ofList_toList]
  have size := size_ofList_takeWhile s.toList
  change _ = asciiLength s at size
  refine ⟨_, _, whole, size, ?_, ?_⟩
  · have joined := congrArg String.toUTF8 whole
    have total := congrArg String.utf8ByteSize whole
    generalize String.ofList (s.toList.takeWhile isAscii) = first at *
    generalize String.ofList (s.toList.dropWhile isAscii) = rest at *
    have bytes : (first ++ rest).toUTF8 = first.toUTF8 ++ rest.toUTF8 := String.toByteArray_append
    rw [String.utf8ByteSize_append] at total
    rw [tailBytes, joined, bytes]
    exact (ByteArray.extract_append_eq_right size.symm total).symm
  · have lengths := congrArg String.length whole
    rw [String.length_append, String.length_ofList] at lengths
    rw [asciiLength]
    omega

theorem isValid_asciiLength (s : String) : String.Pos.Raw.IsValid s ⟨asciiLength s⟩ := by
  obtain ⟨front, rest, whole, size, -⟩ := exists_cut s
  refine String.Pos.Raw.isValid_iff_exists_append.mpr ⟨front, rest, whole, ?_⟩
  rw [← size]
  rfl

/-- Whatever the allocator answers, the course of events is orderly. Even where encoding fails, it
has changed no byte outside the blocks that were handed out meanwhile. What it has written is the
string, whole or in two parts, and the sum of their lengths fits 32 bits. The first part ends before
the first byte that is not ASCII, where a character begins. -/
theorem encode_confined (a : Supplier σ) (offersRealloc asciiFirst : Bool) (s : String) (own : σ)
    (memory : Memory) :
    ∃ outcome after,
      (encode (a.observed offersRealloc) asciiFirst s).run ⟨own, memory, []⟩ = (outcome, after) ∧
      Orderly memory after.events after.memory ∧
      (∀ write, .wrote write ∈ after.events → ∀ address,
        write.after.byte? address ≠ write.before.byte? address →
        ∃ grant ∈ grants after.events, grant.Covers address) ∧
      (∀ address, (∀ grant ∈ grants after.events,
          ¬grant.Covers address ∧ grant.after.byte? address = grant.before.byte? address) →
        after.memory.byte? address = memory.byte? address) ∧
      pieces after.events ∈ [[], [s.toUTF8], [frontBytes s], [tailBytes s, frontBytes s]] ∧
      totalSize (pieces after.events) < UInt32.size ∧
      (∀ extent, outcome = .ok extent → extent.length = totalSize (pieces after.events) ∧
        ∃ last ∈ (grants after.events).head?,
          extent.start ∈ last.place ∧ last.size = extent.length) ∧
      String.Pos.Raw.IsValid s ⟨asciiLength s⟩ ∧
      (∃ rest : String, rest.toUTF8 = tailBytes s ∧ rest.length = s.length - asciiLength s) ∧
      asciiLength s = (s.toUTF8.data.toList.takeWhile (·.toNat < 128)).length := by
  have upholds := upholds_encode a offersRealloc asciiFirst s ⟨own, memory, []⟩
    ⟨Orderly.start, rfl⟩
  revert upholds
  rcases (encode (a.observed offersRealloc) asciiFirst s).run ⟨own, memory, []⟩ with
    ⟨outcome, after⟩
  intro upholds
  have lawful : Lawful memory s after := by
    cases outcome with
    | error e => exact upholds
    | ok extent => exact upholds.lawful
  have finished : ∀ extent, outcome = .ok extent →
      extent.length = totalSize (pieces after.events) ∧
      ∃ last ∈ (grants after.events).head?,
        extent.start ∈ last.place ∧ last.size = extent.length := by
    rintro extent rfl
    exact ⟨upholds.exact.trans upholds.written.symm, upholds.granted⟩
  obtain ⟨_, draft, orderly, rfl⟩ := lawful
  obtain ⟨_, rest, -, -, bytes, length⟩ := exists_cut s
  refine ⟨outcome, after, rfl, orderly, fun write wrote address => orderly.covered wrote,
    fun address apart => ?_, draft.parts, draft.small, finished, isValid_asciiLength s,
    ⟨rest, bytes, length⟩, asciiLength_eq_bytes s⟩
  exact orderly.untouched (fun grant member => (apart grant member).1)
    fun grant member => (apart grant member).2

end SandboxBridge.Transfer
