import StructSketch.Proofs.Transcript
import StructSketch.Session

/-!
# Operations that only make calls

* **`Devices.Answer`**: how the devices answer calls, one after the other.
* **`OnlyCalls`**: an operation that does nothing but make calls, and to which the calls made
  before are all the same. Reading, writing and flushing are such operations, what is made of them
  is, and so is every step of a session.
* **`Source.Leaves`** tells what is left of the input of a source: `Devices.Answer.left` says that
  each byte of it is delivered at most once.
* **`Source.KeepsEnd`**: a source that goes on reporting the end once it has done so;
  `Devices.Answer.ended` says that it stays at the end from then on.
-/

namespace StructSketch

namespace Stream

variable {ρ σ : Type}

/-! ## Sources -/

/-- The states that reads lead to. -/
inductive Source.Reaches [Source ρ] : ρ → ρ → Prop
  | refl {source} : Reaches source source
  | read {source later} : Reaches (Source.read source).2 later → Reaches source later

/-- A source that reports the end and nothing else from now on. -/
def Source.Ended [Source ρ] (source : ρ) : Prop :=
  ∀ later, Reaches source later → (Source.read later).1 = .bytes []

/-- A source that goes on reporting the end once it has done so. -/
def Source.KeepsEnd [Source ρ] (source : ρ) : Prop :=
  ∀ later, Reaches source later → (Source.read later).1 = .bytes [] →
    Ended (Source.read later).2

/-- What is left of the input of a source, told from its state: a read takes its bytes off the
front. -/
def Source.Leaves [Source ρ] (left : ρ → List UInt8) : Prop :=
  ∀ source, left source = (Source.read source).1.chunk ++ left (Source.read source).2

namespace Devices

/-! ## Answers -/

/-- How the devices answer some calls, one after the other. -/
inductive Answer [Source ρ] [Sink σ] : Devices ρ σ → List Call → Devices ρ σ → Prop
  | none {devices} : Answer devices [] devices
  | read {devices answer source calls after} : Source.read devices.source = (answer, source) →
      Answer { devices with source, log := .read answer :: devices.log } calls after →
      Answer devices (.read answer :: calls) after
  | write {devices offer answer sink calls after} :
      Sink.write devices.sink offer = (answer, sink) →
      Answer { devices with sink, log := .write offer answer :: devices.log } calls after →
      Answer devices (.write offer answer :: calls) after
  | flush {devices failure sink calls after} : Sink.flush devices.sink = (failure, sink) →
      Answer { devices with sink, log := .flush failure :: devices.log } calls after →
      Answer devices (.flush failure :: calls) after

section

variable [Source ρ] [Sink σ] {before between after : Devices ρ σ} {calls calls' : List Call}

theorem Answer.append (h : before.Answer calls between) (h' : between.Answer calls' after) :
    before.Answer (calls ++ calls') after := by
  induction h with
  | none => exact h'
  | read hread _ ih => exact .read hread (ih h')
  | write hwrite _ ih => exact .write hwrite (ih h')
  | flush hflush _ ih => exact .flush hflush (ih h')

theorem Answer.makes (h : before.Answer calls after) : before.Makes calls after := by
  induction h with
  | none => rfl
  | read _ _ ih | write _ _ ih | flush _ _ ih => exact ih.cons

/-- What was left of the input has been delivered or is still left. -/
theorem Answer.left {left : ρ → List UInt8} (hleft : Source.Leaves left)
    (h : before.Answer calls after) :
    left before.source = calls.flatMap Call.delivered ++ left after.source := by
  induction h with
  | none => rfl
  | @read devices answer source calls after hread _ ih =>
    have hchunk : Call.delivered (.read answer) = answer.chunk := by cases answer <;> rfl
    rw [hleft, hread, List.flatMap_cons, hchunk, List.append_assoc, ← ih]
  | write _ _ ih | flush _ _ ih => exact ih

theorem Answer.reaches (h : before.Answer calls after) :
    Source.Reaches before.source after.source := by
  induction h with
  | none => exact .refl
  | read hread _ ih => exact .read (by rwa [hread])
  | write _ _ ih | flush _ _ ih => exact ih

end

end Devices

section

variable [Source ρ] {source between later : ρ}

theorem Source.Reaches.trans (h : Reaches source between) (h' : Reaches between later) :
    Reaches source later := by
  induction h with
  | refl => exact h'
  | read _ ih => exact .read (ih h')

theorem Source.Ended.of_reaches (h : Ended source) (hreaches : Reaches source later) :
    Ended later := fun last hlast => h last (hreaches.trans hlast)

theorem Source.KeepsEnd.of_reaches (h : KeepsEnd source) (hreaches : Reaches source later) :
    KeepsEnd later := fun last hlast => h last (hreaches.trans hlast)

/-- Reads that change nothing lead nowhere else. -/
theorem Source.Reaches.eq_of_read (hreaches : Reaches source later)
    (h : (Source.read source).2 = source) : later = source := by
  induction hreaches with
  | refl => rfl
  | read _ ih => exact (ih (by rw [h, h])).trans h

/-- A source that the report of the end leaves as it is stays at the end. -/
theorem Source.ended_of_read (h : Source.read source = (.bytes [], source)) : Ended source := by
  intro later hlater
  rw [hlater.eq_of_read (congrArg Prod.snd h), h]

/-- Behind a read that has reported the end, a source that keeps to that is at the end. -/
theorem Devices.Answer.ended [Sink σ] {before after : Devices ρ σ} {calls : List Call}
    (hkeeps : Source.KeepsEnd before.source) (h : before.Answer calls after)
    (hend : .read (.bytes []) ∈ calls) : Source.Ended after.source := by
  induction h with
  | none => cases hend
  | @read devices answer source calls after hread hrest ih =>
    have hnext : Source.Reaches devices.source source := .read (by rw [hread]; exact .refl)
    rcases List.mem_cons.mp hend with heq | hend
    · -- the first report of the end
      cases heq
      have hended := hkeeps devices.source .refl
      rw [hread] at hended
      exact (hended rfl).of_reaches hrest.reaches
    · exact ih (hkeeps.of_reaches hnext) hend
  | write _ _ ih | flush _ _ ih =>
    rcases List.mem_cons.mp hend with heq | hend
    · cases heq
    · exact ih hkeeps hend

end

/-! ## Operations -/

/-- The devices with earlier calls in their log. -/
def Devices.withEarlier (devices : Devices ρ σ) (earlier : List Call) : Devices ρ σ :=
  { devices with log := devices.log ++ earlier }

/-- An operation that does nothing but make calls, whatever calls were made before. -/
structure OnlyCalls [Source ρ] [Sink σ] {α : Type} (operation : StateM (Devices ρ σ) α) :
    Prop where
  answer : ∀ devices : Devices ρ σ, ∃ calls, devices.Answer calls (operation devices).2
  withEarlier : ∀ (devices : Devices ρ σ) earlier, operation (devices.withEarlier earlier) =
    ((operation devices).1, (operation devices).2.withEarlier earlier)

namespace OnlyCalls

variable [Source ρ] [Sink σ] {α β : Type}

theorem pure (value : α) : OnlyCalls (Pure.pure value : StateM (Devices ρ σ) α) where
  answer _ := ⟨[], .none⟩
  withEarlier _ _ := rfl

theorem bind {first : StateM (Devices ρ σ) α} {rest : α → StateM (Devices ρ σ) β}
    (hfirst : OnlyCalls first) (hrest : ∀ value, OnlyCalls (rest value)) :
    OnlyCalls (first >>= rest) where
  answer devices := by
    obtain ⟨calls, hcalls⟩ := hfirst.answer devices
    obtain ⟨calls', hcalls'⟩ := (hrest (first devices).1).answer (first devices).2
    exact ⟨calls ++ calls', hcalls.append hcalls'⟩
  withEarlier devices earlier := by
    show rest (first (devices.withEarlier earlier)).1 (first (devices.withEarlier earlier)).2 =
      ((rest (first devices).1 (first devices).2).1,
        (rest (first devices).1 (first devices).2).2.withEarlier earlier)
    rw [hfirst.withEarlier]
    exact (hrest (first devices).1).withEarlier (first devices).2 earlier

theorem readAll : OnlyCalls (Devices.channel (ρ := ρ) (σ := σ)).readAll where
  answer devices := by
    show ∃ calls, devices.Answer calls devices.readAll.2
    fun_induction Devices.readAll devices with
    | case1 devices _ reason hread => exact ⟨_, .read hread .none⟩
    | case2 devices _ hread _ _ ih =>
      obtain ⟨calls, hcalls⟩ := ih
      exact ⟨_, .read hread hcalls⟩
    | case3 devices _ hread => exact ⟨_, .read hread .none⟩
    | case4 devices _ byte chunk _ rest after hread _ heq ih =>
      rw [heq] at ih
      obtain ⟨calls, hcalls⟩ := ih
      exact ⟨_, .read hread hcalls⟩
  withEarlier devices earlier := by
    have hearlier : ∀ {devices : Devices ρ σ} {answered : ReadAnswer × ρ},
        Source.read devices.source = answered →
        Source.read (devices.withEarlier earlier).source = answered := id
    show (devices.withEarlier earlier).readAll =
      (devices.readAll.1, devices.readAll.2.withEarlier earlier)
    fun_induction Devices.readAll devices with
    | case1 devices _ reason hread =>
      rw [Devices.readAll_eq (hearlier hread)]
      rfl
    | case2 devices _ hread _ _ ih =>
      rw [Devices.readAll_eq (hearlier hread)]
      exact ih
    | case3 devices _ hread =>
      rw [Devices.readAll_eq (hearlier hread)]
      rfl
    | case4 devices _ byte chunk _ rest after hread _ heq ih =>
      rw [heq] at ih
      rw [Devices.readAll_eq (hearlier hread)]
      exact congrArg (fun read => (read.1.map (byte :: chunk ++ ·), read.2)) ih

theorem writeAll (offer : List UInt8) :
    OnlyCalls ((Devices.channel (ρ := ρ) (σ := σ)).writeAll offer) where
  answer devices := by
    show ∃ calls, devices.Answer calls (devices.writeAll offer).2
    fun_induction Devices.writeAll devices offer with
    | case1 => exact ⟨[], .none⟩
    | case2 devices offer _ _ _ _ hwrite => exact ⟨_, .write hwrite .none⟩
    | case3 devices offer _ _ _ hwrite _ ih =>
      obtain ⟨calls, hcalls⟩ := ih
      exact ⟨_, .write hwrite hcalls⟩
    | case4 devices offer _ _ _ hwrite => exact ⟨_, .write hwrite .none⟩
    | case5 devices offer _ _ _ _ hwrite _ ih =>
      obtain ⟨calls, hcalls⟩ := ih
      exact ⟨_, .write hwrite hcalls⟩
  withEarlier devices earlier := by
    have hearlier : ∀ {devices : Devices ρ σ} {offer : List UInt8} {answered : WriteAnswer × σ},
        Sink.write devices.sink offer = answered →
        Sink.write (devices.withEarlier earlier).sink offer = answered := id
    show (devices.withEarlier earlier).writeAll offer =
      ((devices.writeAll offer).1, (devices.writeAll offer).2.withEarlier earlier)
    fun_induction Devices.writeAll devices offer with
    | case1 devices =>
      rw [Devices.writeAll]
      rfl
    | case2 devices offer hoffer _ _ _ hwrite =>
      rw [Devices.writeAll_eq hoffer (hearlier hwrite)]
      rfl
    | case3 devices offer hoffer _ _ hwrite _ ih =>
      rw [Devices.writeAll_eq hoffer (hearlier hwrite)]
      exact ih
    | case4 devices offer hoffer _ _ hwrite =>
      rw [Devices.writeAll_eq hoffer (hearlier hwrite)]
      rfl
    | case5 devices offer hoffer _ _ _ hwrite _ ih =>
      rw [Devices.writeAll_eq hoffer (hearlier hwrite)]
      exact ih

theorem flush : OnlyCalls (Devices.channel (ρ := ρ) (σ := σ)).flush where
  answer devices := by
    show ∃ calls, devices.Answer calls devices.flush.2
    cases hflush : Sink.flush devices.sink with
    | mk failure sink =>
      refine ⟨[.flush failure], .flush hflush ?_⟩
      rw [Devices.flush, hflush]
      cases failure <;> exact .none
  withEarlier devices earlier := by
    show (devices.withEarlier earlier).flush =
      (devices.flush.1, devices.flush.2.withEarlier earlier)
    cases hflush : Sink.flush devices.sink with
    | mk failure sink =>
      rw [Devices.flush, Devices.flush, Devices.withEarlier, hflush]
      cases failure <;> rfl

end OnlyCalls

end Stream

/-! ## Sessions -/

namespace Session

open StructSketch.Stream

variable {ρ σ : Type} [Source ρ] [Sink σ]

theorem onlyCalls_write (text : String) :
    OnlyCalls (write (Devices.channel (ρ := ρ) (σ := σ)) text) :=
  (OnlyCalls.writeAll _).bind fun _ => .pure _

theorem onlyCalls_writeDeclarations (style : Go.Style) (table : TypeTable)
    (handles : List Handle) :
    OnlyCalls (writeDeclarations (Devices.channel (ρ := ρ) (σ := σ)) style table handles) := by
  induction handles with
  | nil => exact .pure _
  | cons handle rest ih =>
    rw [writeDeclarations]
    split
    · exact .pure _
    · exact (onlyCalls_write _).bind fun
        | .error _ => .pure _
        | .ok () => ih

theorem onlyCalls_writeFile (style : Go.Style) (schema : Schema) :
    OnlyCalls (writeFile (Devices.channel (ρ := ρ) (σ := σ)) style schema) :=
  (onlyCalls_write _).bind fun
    | .error _ => .pure _
    | .ok () => onlyCalls_writeDeclarations _ _ _

theorem onlyCalls_transcribe (session : Session) :
    OnlyCalls (session.transcribe (Devices.channel (ρ := ρ) (σ := σ))) := by
  refine OnlyCalls.readAll.bind fun
    | .error _ => .pure _
    | .ok sample => ?_
  dsimp only
  cases Schema.ofSample session.rootName sample with
  | error failure => exact .pure _
  | ok schema => exact onlyCalls_writeFile _ _

theorem onlyCalls_run (session : Session) :
    OnlyCalls (session.run (Devices.channel (ρ := ρ) (σ := σ))) :=
  (onlyCalls_transcribe session).bind fun _ => OnlyCalls.flush.bind fun _ => .pure _

theorem onlyCalls_perform (session : Session) (step : Step) :
    OnlyCalls (session.perform (Devices.channel (ρ := ρ) (σ := σ)) step) := by
  cases step with
  | run => exact (onlyCalls_run session).bind fun _ => .pure _
  | _ => exact .pure _

end Session

end StructSketch
