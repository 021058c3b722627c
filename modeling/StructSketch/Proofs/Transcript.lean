import Mathlib.Data.List.Infix
import StructSketch.Stream.Device

/-!
# The calls behind reading and writing

* **`Reading answers result`** and **`Writing text writes result`**: the answers that a whole
  reading gets, and the writes that a whole text takes, with what comes of them.
* **`readAll_reads`** and **`writeAll_writes`**: these are the calls that `Devices.readAll` and
  `Devices.writeAll` make.
* **`Writing.accepted`**: what is taken of a text is a beginning of it, and all of it unless a
  write fails.
* **`Source.Delivers`** and **`Sink.Obliging`** are devices without faults: on them reading and
  writing succeed, whatever the sizes of the pieces and however often they are interrupted.
-/

namespace StructSketch.Stream

/-! ## Answers -/

/-- The bytes of a read. -/
def ReadAnswer.chunk : ReadAnswer → List UInt8
  | .bytes chunk => chunk
  | _ => []

/-- Why a read fails. -/
def ReadAnswer.failure? : ReadAnswer → Option String
  | .failed reason => some reason
  | _ => none

/-- Why a write fails; taking nothing is a failure. -/
def WriteAnswer.failure? : WriteAnswer → Option String
  | .failed reason => some reason
  | .taken 0 => some Devices.takesNothing
  | _ => none

/-- A write: what was offered and what was answered. -/
structure Write where
  offer : List UInt8
  answer : WriteAnswer

/-- The call of a write. -/
def Write.call (write : Write) : Call := .write write.offer write.answer

/-- A failure for the given reason, or else a value. -/
def valueUnless {α : Type} (value : α) : Option String → Except String α
  | some reason => .error reason
  | none => .ok value

/-! ## Reading -/

/-- The answers that a reading gets up to the end or the first failure, and what it comes to. -/
inductive Reading : List ReadAnswer → Except String (List UInt8) → Prop
  | ended : Reading [.bytes []] (.ok [])
  | failed {reason} : Reading [.failed reason] (.error reason)
  | interrupted {answers result} : Reading answers result →
      Reading (.interrupted :: answers) result
  | bytes {chunk answers result} : chunk ≠ [] → Reading answers result →
      Reading (.bytes chunk :: answers) (result.map (chunk ++ ·))

namespace Reading

variable {answers : List ReadAnswer} {result : Except String (List UInt8)}

/-- A reading comes to its failure, or else to all bytes it got. -/
theorem result_eq (h : Reading answers result) :
    result = valueUnless (answers.flatMap ReadAnswer.chunk)
      (answers.findSome? ReadAnswer.failure?) := by
  induction h with
  | ended => rfl
  | failed => rfl
  | interrupted _ ih => exact ih
  | @bytes chunk answers result _ _ ih =>
    rw [ih, List.flatMap_cons, List.findSome?_cons]
    show _ = valueUnless (chunk ++ _) (answers.findSome? ReadAnswer.failure?)
    cases answers.findSome? ReadAnswer.failure? <;> rfl

/-- A reading that does not fail gets to the end. -/
theorem end_mem {sample : List UInt8} (h : Reading answers (.ok sample)) :
    .bytes [] ∈ answers := by
  generalize hresult : Except.ok sample = result at h
  induction h generalizing sample with
  | ended => exact List.mem_singleton_self _
  | failed => cases hresult
  | interrupted _ ih => exact List.mem_cons_of_mem _ (ih hresult)
  | @bytes chunk answers result _ _ ih =>
    cases result with
    | error reason => cases hresult
    | ok rest => exact List.mem_cons_of_mem _ (ih rfl)

/-- Only the last answer of a reading asks for no more. -/
theorem ends (h : Reading answers result) :
    ∃ earlier last, answers = earlier ++ [last] ∧ last.goesOn = false ∧
      ∀ answer ∈ earlier, answer.goesOn = true := by
  induction h with
  | ended => exact ⟨[], _, rfl, rfl, by simp⟩
  | failed => exact ⟨[], _, rfl, rfl, by simp⟩
  | interrupted _ ih =>
    obtain ⟨earlier, last, rfl, hlast, hearlier⟩ := ih
    exact ⟨_ :: earlier, last, rfl, hlast, List.forall_mem_cons.mpr ⟨rfl, hearlier⟩⟩
  | bytes hchunk _ ih =>
    obtain ⟨earlier, last, rfl, hlast, hearlier⟩ := ih
    refine ⟨_ :: earlier, last, rfl, hlast, List.forall_mem_cons.mpr ⟨?_, hearlier⟩⟩
    simpa [ReadAnswer.goesOn] using hchunk

end Reading

namespace Devices

variable {ρ σ : Type}

/-- The calls that lie between two states of the devices. -/
def Makes (before : Devices ρ σ) (calls : List Call) (after : Devices ρ σ) : Prop :=
  after.log = calls.reverse ++ before.log

theorem Makes.append {before between after : Devices ρ σ} {calls calls' : List Call}
    (h : before.Makes calls between) (h' : between.Makes calls' after) :
    before.Makes (calls ++ calls') after := by
  unfold Makes at h h' ⊢
  rw [h', h, List.reverse_append, List.append_assoc]

theorem Makes.cons {before after : Devices ρ σ} {call : Call} {calls : List Call} {source : ρ}
    {sink : σ} (h : Makes ⟨source, sink, call :: before.log⟩ calls after) :
    before.Makes (call :: calls) after := by
  unfold Makes at h ⊢
  rw [h, List.reverse_cons, List.append_assoc]
  rfl

/-- What is taken in some calls comes behind what was taken before. -/
theorem Makes.accepted {before after : Devices ρ σ} {calls : List Call}
    (h : before.Makes calls after) :
    after.accepted = before.accepted ++ calls.flatMap Call.accepted := by
  unfold Devices.accepted
  rw [h, List.reverse_append, List.flatMap_append, List.reverse_reverse]

/-- Reading makes the calls of a reading, and leaves the sink alone. -/
theorem readAll_reads [Source ρ] (devices : Devices ρ σ) :
    ∃ answers, Reading answers devices.readAll.1 ∧
      devices.Makes (answers.map .read) devices.readAll.2 ∧
      devices.readAll.2.sink = devices.sink := by
  fun_induction readAll devices with
  | case1 devices => exact ⟨_, .failed, rfl, rfl⟩
  | case2 devices _ _ _ _ ih =>
    obtain ⟨answers, hreading, hcalls, hsink⟩ := ih
    exact ⟨_, hreading.interrupted, hcalls.cons, hsink⟩
  | case3 devices => exact ⟨_, .ended, rfl, rfl⟩
  | case4 devices _ byte chunk _ rest after _ _ heq ih =>
    rw [heq] at ih
    obtain ⟨answers, hreading, hcalls, hsink⟩ := ih
    exact ⟨_, hreading.bytes (List.cons_ne_nil _ _), hcalls.cons, hsink⟩

end Devices

/-! ## Writing -/

/-- The writes that a text takes up to its end or the first failure, and what comes of it: what
a write leaves over is offered again. -/
inductive Writing : List UInt8 → List Write → Except String Unit → Prop
  | done : Writing [] [] (.ok ())
  | failed {text reason} : Writing text [⟨text, .failed reason⟩] (.error reason)
  | nothing {text} : Writing text [⟨text, .taken 0⟩] (.error Devices.takesNothing)
  | interrupted {text writes result} : Writing text writes result →
      Writing text (⟨text, .interrupted⟩ :: writes) result
  | taken {text count writes result} : Writing (text.drop (count + 1)) writes result →
      Writing text (⟨text, .taken (count + 1)⟩ :: writes) result

/-- The writes that some texts take, one text after the other. -/
inductive WritingEach : List (List UInt8) → List Write → Except String Unit → Prop
  | done : WritingEach [] [] (.ok ())
  | failed {text texts writes reason} : Writing text writes (.error reason) →
      WritingEach (text :: texts) writes (.error reason)
  | next {text texts writes writes' result} : Writing text writes (.ok ()) →
      WritingEach texts writes' result → WritingEach (text :: texts) (writes ++ writes') result

/-- What is taken in some writes. -/
def acceptedIn (writes : List Write) : List UInt8 :=
  writes.flatMap fun write => write.call.accepted

theorem acceptedIn_append (writes writes' : List Write) :
    acceptedIn (writes ++ writes') = acceptedIn writes ++ acceptedIn writes' :=
  List.flatMap_append

/-- Why the first failing one of some writes fails. -/
def failureIn (writes : List Write) : Option String :=
  writes.findSome? fun write => write.answer.failure?

/-- Behind a write that fails there is no other. -/
def StopsAtFailure (writes : List Write) : Prop :=
  ∀ earlier write later, writes = earlier ++ write :: later →
    write.answer.failure? ≠ none → later = []

theorem StopsAtFailure.nil : StopsAtFailure [] := by
  intro earlier write later heq
  simp at heq

theorem StopsAtFailure.singleton (write : Write) : StopsAtFailure [write] := by
  intro earlier other later heq _
  cases earlier with
  | nil => exact (List.cons.inj heq).2.symm
  | cons first earlier => simp at heq

theorem StopsAtFailure.append {writes writes' : List Write} (hnone : failureIn writes = none)
    (h : StopsAtFailure writes') : StopsAtFailure (writes ++ writes') := by
  intro earlier write later heq hfailure
  rcases List.append_eq_append_iff.mp heq with ⟨between, rfl, rfl⟩ | ⟨between, rfl, hrest⟩
  · exact h between write later rfl hfailure
  · cases between with
    | nil => exact h [] write later hrest.symm hfailure
    | cons first between =>
      -- the failing write would be one of the first ones
      obtain ⟨rfl, rfl⟩ := List.cons.inj hrest
      rw [failureIn, List.findSome?_eq_none_iff] at hnone
      exact absurd (hnone write (by simp)) hfailure

theorem StopsAtFailure.cons {write : Write} {writes : List Write}
    (hnone : write.answer.failure? = none) (h : StopsAtFailure writes) :
    StopsAtFailure (write :: writes) := by
  show StopsAtFailure ([write] ++ writes)
  refine .append ?_ h
  simpa [failureIn] using hnone

namespace Writing

variable {text : List UInt8} {writes : List Write} {result : Except String Unit}

/-- What is taken of a text is a beginning of it, and all of it if no write fails. -/
theorem accepted (h : Writing text writes result) :
    acceptedIn writes <+: text ∧ (result = .ok () → acceptedIn writes = text) := by
  induction h with
  | done => exact ⟨List.prefix_rfl, fun _ => rfl⟩
  | failed => exact ⟨List.nil_prefix, fun h => nomatch h⟩
  | nothing => exact ⟨List.nil_prefix, fun h => nomatch h⟩
  | interrupted _ ih => exact ih
  | @taken text count writes result _ ih =>
    have hfirst : acceptedIn (⟨text, .taken (count + 1)⟩ :: writes) =
        text.take (count + 1) ++ acceptedIn writes := rfl
    obtain ⟨hbegins, hall⟩ := ih
    rw [hfirst]
    constructor
    · conv_rhs => rw [← List.take_append_drop (count + 1) text]
      exact (List.prefix_append_right_inj _).mpr hbegins
    · intro hok
      rw [hall hok, List.take_append_drop]

theorem result_eq (h : Writing text writes result) :
    result = valueUnless () (failureIn writes) := by
  induction h with
  | done => rfl
  | failed => rfl
  | nothing => rfl
  | interrupted _ ih => exact ih
  | taken _ ih => exact ih

theorem stopsAtFailure (h : Writing text writes result) : StopsAtFailure writes := by
  induction h with
  | done => exact .nil
  | failed => exact .singleton _
  | nothing => exact .singleton _
  | interrupted _ ih => exact .cons rfl ih
  | taken _ ih => exact .cons rfl ih

end Writing

/-- A value stands for the absence of a failure. -/
theorem eq_none_of_valueUnless {α : Type} {value value' : α} {failure? : Option String}
    (h : .ok value' = valueUnless value failure?) : failure? = none := by
  cases failure? with
  | none => rfl
  | some reason => cases h

namespace WritingEach

variable {texts : List (List UInt8)} {writes : List Write} {result : Except String Unit}

theorem accepted (h : WritingEach texts writes result) :
    acceptedIn writes <+: texts.flatten ∧
      (result = .ok () → acceptedIn writes = texts.flatten) := by
  induction h with
  | done => exact ⟨List.prefix_rfl, fun _ => rfl⟩
  | failed hfirst =>
    exact ⟨hfirst.accepted.1.trans (List.prefix_append _ _), fun h => nomatch h⟩
  | next hfirst _ ih =>
    rw [acceptedIn_append, hfirst.accepted.2 rfl, List.flatten_cons]
    exact ⟨(List.prefix_append_right_inj _).mpr ih.1, fun hok => by rw [ih.2 hok]⟩

theorem result_eq (h : WritingEach texts writes result) :
    result = valueUnless () (failureIn writes) := by
  induction h with
  | done => rfl
  | failed hfirst => exact hfirst.result_eq
  | @next text texts writes writes' result hfirst _ ih =>
    have hnone : failureIn writes = none := eq_none_of_valueUnless hfirst.result_eq
    rw [ih]
    unfold failureIn at hnone ⊢
    rw [List.findSome?_append, hnone, Option.none_or]

theorem stopsAtFailure (h : WritingEach texts writes result) : StopsAtFailure writes := by
  induction h with
  | done => exact .nil
  | failed hfirst => exact hfirst.stopsAtFailure
  | next hfirst _ ih => exact ih.append (eq_none_of_valueUnless hfirst.result_eq)

end WritingEach

/-! ## Devices without faults -/

/-- A source that hands out the given bytes, in pieces of any sizes and with any interruptions,
and then reports the end. -/
inductive Source.Delivers {ρ : Type} [Source ρ] : ρ → List UInt8 → Prop
  | ended {source later} : read source = (.bytes [], later) → Delivers source []
  | interrupted {source later bytes} : read source = (.interrupted, later) →
      Delivers later bytes → Delivers source bytes
  | bytes {source later chunk bytes} : read source = (.bytes chunk, later) → chunk ≠ [] →
      Delivers later bytes → Delivers source (chunk ++ bytes)

/-- The states that writes lead to. -/
inductive Sink.Reaches {σ : Type} [Sink σ] : σ → σ → Prop
  | refl {sink} : Reaches sink sink
  | write {sink offer later} : Reaches (Sink.write sink offer).2 later → Reaches sink later

/-- A sink that takes something of every offer, unless it is interrupted, and never fails to
flush. -/
structure Sink.Obliging {σ : Type} [Sink σ] (sink : σ) : Prop where
  takes : ∀ later, Reaches sink later → ∀ offer, offer ≠ [] →
    (write later offer).1 = .interrupted ∨ ∃ count, (write later offer).1 = .taken (count + 1)
  flushes : ∀ later, Reaches sink later → (flush later).1 = none

theorem Sink.Obliging.write {σ : Type} [Sink σ] {sink : σ} (h : Obliging sink)
    (offer : List UInt8) : Obliging (Sink.write sink offer).2 where
  takes later hlater := h.takes later (.write hlater)
  flushes later hlater := h.flushes later (.write hlater)

/-- What all states of a sink that writes lead to have in common makes it obliging. -/
theorem Sink.obliging_of_invariant {σ : Type} [Sink σ] (invariant : σ → Prop)
    (hwrite : ∀ sink, invariant sink → ∀ offer, invariant (Sink.write sink offer).2)
    (htakes : ∀ sink, invariant sink → ∀ offer, offer ≠ [] →
      (Sink.write sink offer).1 = .interrupted ∨
        ∃ count, (Sink.write sink offer).1 = .taken (count + 1))
    (hflush : ∀ sink, invariant sink → (Sink.flush sink).1 = none) {sink : σ}
    (h : invariant sink) : Obliging sink := by
  have hreaches : ∀ later, Reaches sink later → invariant later := by
    intro later hlater
    induction hlater with
    | refl => exact h
    | write _ ih => exact ih (hwrite _ h _)
  exact ⟨fun later hlater => htakes later (hreaches later hlater),
    fun later hlater => hflush later (hreaches later hlater)⟩

namespace Devices

variable {ρ σ : Type}

theorem readAll_eq [Source ρ] {devices : Devices ρ σ} {answer : ReadAnswer} {source : ρ}
    (h : Source.read devices.source = (answer, source)) :
    devices.readAll =
      let after : Devices ρ σ := ⟨source, devices.sink, .read answer :: devices.log⟩
      match answer with
      | .failed reason => (.error reason, after)
      | .interrupted => after.readAll
      | .bytes [] => (.ok [], after)
      | .bytes (byte :: chunk) =>
        (after.readAll.1.map (byte :: chunk ++ ·), after.readAll.2) := by
  rw [readAll]
  split
  rename_i heq
  obtain ⟨rfl, rfl⟩ := Prod.mk.inj (h.symm.trans heq)
  split <;> rfl

theorem writeAll_eq [Sink σ] {devices : Devices ρ σ} {offer : List UInt8} {answer : WriteAnswer}
    {sink : σ} (hoffer : offer ≠ []) (h : Sink.write devices.sink offer = (answer, sink)) :
    devices.writeAll offer =
      let after : Devices ρ σ := ⟨devices.source, sink, .write offer answer :: devices.log⟩
      match answer with
      | .failed reason => (.error reason, after)
      | .interrupted => after.writeAll offer
      | .taken 0 => (.error takesNothing, after)
      | .taken (count + 1) => after.writeAll (offer.drop (count + 1)) := by
  rw [writeAll, dif_neg hoffer]
  split
  rename_i heq
  obtain ⟨rfl, rfl⟩ := Prod.mk.inj (h.symm.trans heq)
  split <;> rfl

/-- Reading a source that delivers some bytes gives these bytes. -/
theorem readAll_of_delivers [Source ρ] {source : ρ} {bytes : List UInt8}
    (h : Source.Delivers source bytes) (sink : σ) (log : List Call) :
    (Devices.mk source sink log).readAll.1 = .ok bytes := by
  induction h generalizing log with
  | ended hread => rw [readAll_eq hread]
  | interrupted hread _ ih =>
    rw [readAll_eq hread]
    exact ih _
  | bytes hread hchunk _ ih =>
    obtain ⟨byte, chunk, rfl⟩ := List.exists_cons_of_ne_nil hchunk
    rw [readAll_eq hread]
    simp only [ih]
    rfl

/-- Writing a text makes the calls of a writing; an obliging sink stays so and takes it all. -/
theorem writeAll_writes [Sink σ] (devices : Devices ρ σ) (text : List UInt8) :
    ∃ writes, Writing text writes (devices.writeAll text).1 ∧
      devices.Makes (writes.map Write.call) (devices.writeAll text).2 ∧
      (Sink.Obliging devices.sink →
        (devices.writeAll text).1 = .ok () ∧ Sink.Obliging (devices.writeAll text).2.sink) := by
  fun_induction writeAll devices text with
  | case1 devices => exact ⟨[], .done, rfl, fun h => ⟨rfl, h⟩⟩
  | case2 devices offer hoffer sink reason _ hwrite =>
    refine ⟨_, .failed, rfl, fun h => ?_⟩
    have htakes := h.takes _ .refl offer hoffer
    simp [hwrite] at htakes
  | case3 devices offer hoffer sink _ hwrite after ih =>
    obtain ⟨writes, hwriting, hcalls, hobliging⟩ := ih
    refine ⟨_, hwriting.interrupted, hcalls.cons, fun h => hobliging ?_⟩
    simpa only [hwrite] using h.write offer
  | case4 devices offer hoffer sink _ hwrite =>
    refine ⟨_, .nothing, rfl, fun h => ?_⟩
    have htakes := h.takes _ .refl offer hoffer
    simp [hwrite] at htakes
  | case5 devices offer hoffer sink count _ hwrite after ih =>
    obtain ⟨writes, hwriting, hcalls, hobliging⟩ := ih
    refine ⟨_, hwriting.taken, hcalls.cons, fun h => hobliging ?_⟩
    simpa only [hwrite] using h.write offer

end Devices

end StructSketch.Stream
