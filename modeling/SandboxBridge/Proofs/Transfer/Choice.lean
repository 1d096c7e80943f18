import SandboxBridge.Proofs.Machine
import SandboxBridge.Proofs.Native
import SandboxBridge.Proofs.Transfer.Paths

/-!
The setting that chooses how a bridge encodes strings. Over a module with an allocator of its own,
the exact way succeeds wherever the other does, at the same place and with the same bytes, unless
the buffer of the memory has been detached by hand; strings of ASCII do not tell the two apart.
-/

namespace SandboxBridge

open Machine Work

namespace Machine

variable {α : Type} {m : Machine} {fast : Bool}

def provision (m : Machine) : Allocator × Memory :=
  (m.guest.allocator, m.memory)

structure Stands (m : Machine) (s : Allocator × Memory) : Prop where
  same : m.provision = s
  unscripted : ∀ entry, m.guest.overrides entry = []

instance (work : Memory.Action α) :
    Agrees Stands (onMemory work).run (Allocator.onMemory work).run where
  agreed {m _} stands := by
    obtain ⟨rfl, unscripted⟩ := stands
    obtain ⟨journal, ran⟩ := run_onMemory work m
    rw [ran]
    exact ⟨rfl, rfl, unscripted⟩

theorem onAllocator_agrees (work : Allocator.Action α) {next : α → Local α}
    (talks : ∀ value m, ∃ journal, (next value).run m = (.ok value, { m with journal })) :
    Agrees Stands (onAllocator work >>= next).run work.run where
  agreed {m _} stands := by
    obtain ⟨rfl, unscripted⟩ := stands
    obtain ⟨journal, ran⟩ := run_onAllocator work m
    rw [run_bind, ran, provision]
    generalize work.run (m.guest.allocator, m.memory) = done
    rcases done with ⟨e | value, own, memory⟩
    · exact ⟨rfl, rfl, unscripted⟩
    · obtain ⟨talk, said⟩ := talks value
        { m with guest := { m.guest with allocator := own }, memory, journal }
      dsimp only
      rw [said]
      exact ⟨rfl, rfl, unscripted⟩

theorem callAllocator_agrees {entry : AllocatorEntry} (gives : entry ≠ .free) (args : List Nat)
    {work : Local Nat} {own : Allocator.Action Nat} (agrees : Agrees Stands work.run own.run) :
    Agrees Stands (callAllocator entry args work).run own.run where
  agreed {m _} stands := by
    obtain ⟨value, after⟩ := agrees.agreed stands
    have answers : (answering entry work).run m = work.run m := by
      rw [answering, run_bind]
      rcases work.run m with ⟨_ | _, _⟩ <;> simp [gives]
    rw [run_callAllocator_normal args work (stands.unscripted entry), answers]
    exact ⟨value, after.same, after.unscripted⟩

theorem malloc_agrees (size : Nat) :
    Agrees Stands (malloc size).run (Allocator.malloc size).run := by
  unfold malloc
  apply callAllocator_agrees
  · nofun
  · exact onAllocator_agrees _ fun _ _ => ⟨_, rfl⟩

theorem realloc_agrees (start oldSize newSize : Nat) :
    Agrees Stands (realloc start oldSize newSize).run
      (Allocator.realloc start oldSize newSize).run := by
  unfold realloc
  apply callAllocator_agrees
  · nofun
  · refine ⟨fun {m _} stands => ?_⟩
    refine (onAllocator_agrees (Allocator.realloc start oldSize newSize) ?_).agreed stands
    intro moved m
    split <;> exact ⟨_, rfl⟩

theorem alike_native : (provider true).Alike Stands Transfer.native where
  malloc := malloc_agrees
  realloc := .some realloc_agrees
  write start data := inferInstanceAs (Agrees Stands (onMemory (Memory.writeBytes start data)).run
    (Allocator.onMemory (Memory.writeBytes start data)).run)
  growing _ _ _ := ⟨fun stands => ⟨rfl, stands.same, stands.unscripted⟩⟩

/-- The machine, set to count on ASCII or not to. -/
def withFastPath (m : Machine) (fast : Bool) : Machine :=
  { m with settings := { m.settings with asciiFastPath := fast } }

/-- The work does the same whether the machine is set to count on ASCII or not. -/
abbrev IgnoresChoice (fast : Bool) (work : StateM Machine α) : Prop :=
  Agrees (fun m other => other = m.withFastPath fast) work work

theorem ignoresChoice_of_modifyGet {f : Machine → α × Machine}
    (ignores : ∀ m, f (m.withFastPath fast) = ((f m).1, (f m).2.withFastPath fast)) :
    IgnoresChoice fast (modifyGet f) where
  agreed {m other} same := by
    subst same
    change (f m).1 = (f (m.withFastPath fast)).1 ∧
      (f (m.withFastPath fast)).2 = (f m).2.withFastPath fast
    rw [ignores]
    exact ⟨rfl, rfl⟩

theorem ignoresChoice_of_look {next : Machine → StateM Machine α}
    (ignores : ∀ m, next (m.withFastPath fast) = next m)
    (each : ∀ m, IgnoresChoice fast (next m)) : IgnoresChoice fast (get >>= next) := by
  apply Agrees.of_look
  rintro m _ rfl
  rw [ignores]
  exact each m

instance (level : Level) (target message : String) :
    IgnoresChoice fast (note level target message) :=
  ignoresChoice_of_modifyGet fun _ => rfl

instance (before : MemoryMark) (work : StateM Machine α) [IgnoresChoice fast work] :
    IgnoresChoice fast (notingSince before work) := by
  unfold notingSince
  have noting (value : α) : IgnoresChoice fast (get >>= fun m => do
      (memoryNotes before m.memory).forM fun (level, message) =>
        note level LogTarget.memory message
      return value) :=
    ignoresChoice_of_look (fun _ => rfl) fun _ => inferInstance
  infer_instance

instance (work : StateM Machine α) [IgnoresChoice fast work] :
    IgnoresChoice fast (notingMemory work) :=
  ignoresChoice_of_look (fun _ => rfl) fun _ => inferInstance

instance (work : Memory.Action α) : IgnoresChoice fast (onMemory work).run :=
  have : IgnoresChoice fast (modifyGet fun m =>
      let (result, memory) := work.run m.memory
      (result, { m with memory })) :=
    ignoresChoice_of_modifyGet fun _ => rfl
  inferInstanceAs (IgnoresChoice fast (notingMemory _))

instance (work : Allocator.Action α) : IgnoresChoice fast (onAllocator work).run :=
  have : IgnoresChoice fast (modifyGet fun m =>
      let (result, allocator, memory) := work.run (m.guest.allocator, m.memory)
      (result, { m with guest := { m.guest with allocator }, memory })) :=
    ignoresChoice_of_modifyGet fun _ => rfl
  inferInstanceAs (IgnoresChoice fast (notingMemory _))

instance (entry : AllocatorEntry) : IgnoresChoice fast (nextOverride entry) := by
  apply ignoresChoice_of_modifyGet
  intro m
  change (match m.guest.overrides entry with | [] => _ | next :: rest => _) = _
  cases m.guest.overrides entry <;> rfl

instance (work : Local Nat) [IgnoresChoice fast work.run] (next : Override) :
    IgnoresChoice fast (overridden work next).run := by
  unfold overridden grow
  cases next <;> infer_instance

instance (work : Local α) [ignores : IgnoresChoice fast work.run] :
    IgnoresChoice fast (settle work).run where
  agreed same := by
    obtain ⟨value, after⟩ := ignores.agreed same
    exact ⟨congrArg Except.ok value, after⟩

instance (entry : AllocatorEntry) (args : List Nat) (work : Local Nat)
    [IgnoresChoice fast work.run] : IgnoresChoice fast (callAllocator entry args work).run := by
  unfold callAllocator
  have (call : AllocatorCall) : IgnoresChoice fast (recordCall call) :=
    ignoresChoice_of_modifyGet fun _ => rfl
  infer_instance

instance (size : Nat) : IgnoresChoice fast (malloc size).run := by
  unfold malloc
  infer_instance

instance (start oldSize newSize : Nat) :
    IgnoresChoice fast (realloc start oldSize newSize).run := by
  unfold realloc
  have resizes (inPlace : Bool) : IgnoresChoice fast (do
      let moved ← onAllocator (Allocator.realloc start oldSize newSize)
      if !inPlace then
        note .trace LogTarget.guest s!"native module: realloc moved {start} -> {moved}"
      return moved : Local Nat).run := by
    dsimp only
    infer_instance
  have : IgnoresChoice fast (get >>= fun m => do
      let moved ← onAllocator (Allocator.realloc start oldSize newSize)
      if !m.guest.allocator.resizesInPlace start then
        note .trace LogTarget.guest s!"native module: realloc moved {start} -> {moved}"
      return moved : Local Nat).run := by
    apply Agrees.of_inspect
    rintro m _ rfl
    exact resizes (m.guest.allocator.resizesInPlace start)
  exact inferInstance

theorem alike_provider (offersRealloc : Bool) : (provider offersRealloc).Alike
    (fun m other => other = m.withFastPath fast) (provider offersRealloc) where
  malloc size := inferInstanceAs (IgnoresChoice fast (malloc size).run)
  realloc := by
    cases offersRealloc with
    | false => exact .none
    | true => exact .some fun _ _ _ => inferInstance
  write start data :=
    inferInstanceAs (IgnoresChoice fast (onMemory (Memory.writeBytes start data)).run)
  growing _ _ _ := ignoresChoice_of_modifyGet fun _ => rfl

/-! Encoding. -/

theorem encode_ignoresChoice {s : String} (ascii : ∀ c ∈ s.toList, Transfer.isAscii c) :
    IgnoresChoice fast (encode s).run := by
  have single (m : Machine) : Transfer.encode (provider m.guest.offersRealloc)
      m.settings.asciiFastPath s = Transfer.encodeExact (provider m.guest.offersRealloc) s :=
    Transfer.encode_eq_exact _ _ ascii
  unfold encode
  apply Agrees.of_inspect
  rintro m _ rfl
  rw [single, single]
  exact .bind (Transfer.encodeExact_agrees (alike_provider m.guest.offersRealloc) s) fun _ =>
    inferInstance

theorem run_encode (s : String) (m : Machine) : ∃ journal, (encode s).run m =
    (((Transfer.encode (provider m.guest.offersRealloc) m.settings.asciiFastPath s).run m).1,
      { ((Transfer.encode (provider m.guest.offersRealloc) m.settings.asciiFastPath s).run m).2
        with journal }) := by
  unfold encode
  simp only [run_bind, run_get]
  rcases (Transfer.encode _ _ s).run m with ⟨e | extent, m'⟩
  · exact ⟨m'.journal, rfl⟩
  · exact ⟨_, rfl⟩

theorem Native.withFastPath (native : m.Native) (fast : Bool) : (m.withFastPath fast).Native :=
  native.of_side rfl

theorem Native.encode_agrees (native : m.Native) (fast : Bool) (s : String) :
    ∃ m', (encode s).run (m.withFastPath fast) =
        (((Transfer.encode Transfer.native fast s).run m.provision).1, m') ∧
      m'.provision = ((Transfer.encode Transfer.native fast s).run m.provision).2 := by
  obtain ⟨value, after⟩ := (Transfer.encode_agrees alike_native fast s).agreed
    (s := m.withFastPath fast) (t := m.provision) ⟨rfl, native.unscripted⟩
  obtain ⟨journal, ran⟩ := run_encode s (m.withFastPath fast)
  rw [(native.withFastPath fast).offers] at ran
  exact ⟨_, ran.trans (Prod.ext value rfl), after.same⟩

theorem Native.encodes_exactly (native : m.Native) (attached : m.memory.buffer.detached = false)
    {s : String} {extent : Transfer.Extent} {counting : Machine}
    (encoded : (encode s).run (m.withFastPath true) = (.ok extent, counting)) :
    ∃ plain, (encode s).run (m.withFastPath false) = (.ok extent, plain) ∧
      Transfer.NoLarger plain.provision counting.provision := by
  obtain ⟨pages, spans⟩ := native.resizing.2.spans attached
  obtain ⟨m₁, ran, after⟩ := native.encode_agrees true s
  obtain ⟨plain, exactly, left⟩ := native.encode_agrees false s
  rw [encoded] at ran
  obtain ⟨result, rfl⟩ := Prod.mk.inj ran
  have done : (Transfer.encode Transfer.native true s).run m.provision =
      (.ok extent, counting.provision) := Prod.ext result.symm after.symm
  obtain ⟨w, done, larger⟩ := Transfer.encode_native_exact spans done
  change (Transfer.encode Transfer.native false s).run m.provision = _ at done
  rw [done] at exactly left
  subst left
  exact ⟨plain, exactly, larger⟩

end Machine

namespace Execution

variable {settings : Settings} {pages : Nat} {maxPages : Option Nat} {guest : Guest} {store : Store}
  {global : ObjectId} {x : Execution}

/-- In every state of a bridge over a module with an allocator of its own, a string that is encoded
counting on ASCII is encoded the exact way at the same place, with the same bytes in no more pages,
if the buffer of the memory has not been detached by hand. A string of ASCII is encoded the same
way in any case, or fails the same way. -/
theorem encodings_agree (exports : guest.allocator.exportsRealloc = true)
    (offers : guest.offersRealloc = true) (unscripted : ∀ entry, guest.overrides entry = [])
    (reached : Contract.native.Reaches
      (start (create settings (.ofPages pages maxPages) guest store global)) x) (s : String) :
    (x.machine.memory.buffer.detached = false → ∀ extent counting,
      (encode s).run (x.machine.withFastPath true) = (.ok extent, counting) →
      ∃ plain, (encode s).run (x.machine.withFastPath false) = (.ok extent, plain) ∧
        Transfer.NoLarger plain.provision counting.provision) ∧
    ((∀ c ∈ s.toList, Transfer.isAscii c) →
      ∃ result plain, (encode s).run (x.machine.withFastPath false) = (result, plain) ∧
        (encode s).run (x.machine.withFastPath true) = (result, plain.withFastPath true)) := by
  have native := native_reaches
    (.create settings pages maxPages store global exports offers unscripted) reached
  constructor
  · intro attached extent counting encoded
    exact native.encodes_exactly attached encoded
  · intro ascii
    have ignores : IgnoresChoice true (encode s).run := encode_ignoresChoice ascii
    obtain ⟨value, after⟩ := ignores.agreed (s := x.machine.withFastPath false) rfl
    exact ⟨_, _, rfl, Prod.ext value.symm after⟩

def narrow : Execution :=
  start (create {} (.ofPages 1 (some 2)) {} {} ⟨0⟩)

theorem native_narrow : narrow.machine.Native :=
  .create {} 1 (some 2) {} ⟨0⟩ rfl rfl fun _ => rfl

theorem reaches_filled : ∃ m, Contract.native.Reaches narrow ⟨m, .outside, [], []⟩ ∧
    m.provision = ({ mallocs := 1, top := 65528, last := some 8 }, .ofPages 1 (some 2)) := by
  have frame := frame_create {} (.ofPages 1 (some 2)) {} {} ⟨0⟩
  have fresh : narrow.machine.provision = ({}, .ofPages 1 (some 2)) :=
    congrArg (fun part => (part.2.2.allocator, part.2.1)) frame
  obtain ⟨-, after⟩ := (malloc_agrees 65520).agreed ⟨fresh, native_narrow.unscripted⟩
  have aligned : Allocator.alignUp 8 = .ok 8 := rfl
  have granted : (Allocator.malloc 65520).run ({}, .ofPages 1 (some 2)) = _ :=
    Allocator.malloc_ok aligned (by decide)
      ((Memory.spans_ofPages 1 (some 2)).reaching_of_le (by decide))
  rw [granted] at after
  exact ⟨_, Contract.reaches_done .refl (.malloc 65520) nofun
    (Run.ofState_eq (malloc 65520).run _), after.same⟩

/-- A string that needs another page in the worst case does not need it in the end. -/
theorem encodings_agree_narrow : ∃ x counting plain, Contract.native.Reaches narrow x ∧
    x.machine.memory.buffer.detached = false ∧
    (encode "ééé").run (x.machine.withFastPath true) = (.ok ⟨65528, 6⟩, counting) ∧
    (encode "ééé").run (x.machine.withFastPath false) = (.ok ⟨65528, 6⟩, plain) ∧
    Transfer.NoLarger plain.provision counting.provision := by
  obtain ⟨m, reached, provision⟩ := reaches_filled
  have native := native_reaches native_narrow reached
  have attached : m.memory.buffer.detached = false :=
    congrArg (fun part => part.2.buffer.detached) provision
  have spans := Memory.spans_ofPages 1 (some 2)
  have early : 65528 + ("ééé".toUTF8.extract 0 (Transfer.asciiLength "ééé")).size ≤
      (Memory.ofPages 1 (some 2)).size := by
    rw [Transfer.size_front, spans.sized]
    decide
  have written := spans.written early
  have admits : Memory.Admits ((Memory.ofPages 1 (some 2)).written 65528
      ("ééé".toUTF8.extract 0 (Transfer.asciiLength "ééé")))
      (Memory.pagesTo (65528 + Transfer.worstLength "ééé")) :=
    ⟨by decide, by rw [Memory.pageLimit_written]; decide⟩
  obtain ⟨grown, second⟩ := written.reaching_of_admits fun _ => admits
  have late := written.reached second
  have grows : Transfer.Grows "ééé" { mallocs := 1, top := 65528, last := some 8 }
      (.ofPages 1 (some 2)) 65528 (.ofPages 1 (some 2)) grown :=
    ⟨rfl, by decide, spans.reaching_of_le (by decide), second⟩
  obtain ⟨w, done⟩ := grows.encodes rfl (by decide) ⟨spans.attached, by rw [spans.sized]; decide⟩
    ⟨late.spans.attached, Nat.le_trans (by decide) late.within⟩
  obtain ⟨counting, encoded, -⟩ := native.encode_agrees true "ééé"
  rw [provision, done] at encoded
  obtain ⟨agree, -⟩ := encodings_agree (by rfl) (by rfl) (fun _ => by rfl) reached "ééé"
  obtain ⟨plain, exactly, larger⟩ := agree attached _ _ encoded
  exact ⟨_, counting, plain, reached, attached, encoded, exactly, larger⟩

/-- Once the buffer of the memory is detached by hand, the memory grows by all that is asked for.
The exact way asks for more at first. -/
theorem encodings_differ_detached : ∃ x counting plain, Contract.native.Reaches narrow x ∧
    (encode "😀😀😀").run (x.machine.withFastPath true) = (.ok ⟨65528, 12⟩, counting) ∧
    (encode "😀😀😀").run (x.machine.withFastPath false) = (.error .outOfMemory, plain) := by
  obtain ⟨m, filled, provision⟩ := reaches_filled
  have native := native_reaches native_narrow filled
  generalize held : ((Memory.ofPages 1 (some 2)).detachAt 0).2 = gone
  obtain ⟨m, reached, provision⟩ : ∃ m', Contract.native.Reaches narrow ⟨m', .outside, [], []⟩ ∧
      m'.provision = ({ mallocs := 1, top := 65528, last := some 8 }, gone) := by
    have detaching : Agrees Stands (onMemory (Memory.Access.detachAt 0).perform).run
      (Allocator.onMemory (Memory.Access.detachAt 0).perform).run := inferInstance
    obtain ⟨-, after⟩ := detaching.agreed ⟨provision, native.unscripted⟩
    exact ⟨_, Contract.reaches_done filled (.memory (.detachAt 0)) nofun
      (Run.ofState_eq (onMemory (Memory.Access.detachAt 0).perform).run m),
      after.same.trans (congrArg (Prod.mk _) held)⟩
  have native := native_reaches native_narrow reached
  obtain ⟨counting, encoded, -⟩ := native.encode_agrees true "😀😀😀"
  obtain ⟨plain, refused, -⟩ := native.encode_agrees false "😀😀😀"
  have spans : (gone.regrown 2).Spans 2 :=
    Memory.spans_regrown_of_gone (by subst held; rfl) 2
  have early : 65528 + ("😀😀😀".toUTF8.extract 0 (Transfer.asciiLength "😀😀😀")).size ≤
      (gone.regrown 2).size := by
    rw [Transfer.size_front, spans.sized]
    decide
  have written := spans.written early
  have grows : Transfer.Grows "😀😀😀" { mallocs := 1, top := 65528, last := some 8 } gone 65528
      (gone.regrown 2) _ :=
    ⟨rfl, by decide, by subst held; rfl, written.reaching_of_le (by decide)⟩
  obtain ⟨w, done⟩ := grows.encodes rfl (by decide) ⟨spans.attached, by rw [spans.sized]; decide⟩
    ⟨written.attached, by rw [written.sized]; decide⟩
  rw [provision, done] at encoded
  rw [provision, ← held] at refused
  exact ⟨_, counting, plain, reached, encoded, refused⟩

end Execution

end SandboxBridge
