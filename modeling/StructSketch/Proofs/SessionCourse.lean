import StructSketch.Proofs.OwnCalls
import StructSketch.Proofs.SessionRun

/-!
# The course of a session

A session can be given options, asked for them and run, as often as one likes and in any order.

* **`Session.course`**: the steps of a session as they went, each with the devices before and
  behind it.
* **`Session.Independent`**: the runs of a course have nothing in common but the options that were
  set last and the devices as they were left. So each of them is the run of a new session, and
  no byte of the input is seen by two of them.
* **`Session.run_of_ended`**: at the end of its input a run offers nothing, and its fault is that
  of the empty document.
* **`Session.independent_course`**: every course is like this.
-/

namespace StructSketch

namespace Session

open StructSketch.Stream

/-! ## Options -/

/-- The package that a step sets. -/
def Step.package? : Step → Option String
  | .setPackage package => some package
  | .setOptions options => some options.package
  | _ => none

/-- Whether a step sets the import, and how. -/
def Step.importJson? : Step → Option Bool
  | .setImportJson importJson => some importJson
  | .setOptions options => some options.importJson
  | _ => none

/-- The options behind some steps: each one as it was set last. -/
def lastSet (options : Go.FileOptions) (steps : List Step) : Go.FileOptions :=
  { package := (steps.reverse.findSome? Step.package?).getD options.package
    importJson := (steps.reverse.findSome? Step.importJson?).getD options.importJson }

/-- What is set by a first step counts until it is set again. -/
theorem lastSet_cons (options : Go.FileOptions) (step : Step) (steps : List Step) :
    lastSet options (step :: steps) = lastSet (lastSet options [step]) steps := by
  have hlater : ∀ {α : Type} (set? : Step → Option α) (value : α),
      (((step :: steps).reverse.findSome? set?).getD value) =
        ((steps.reverse.findSome? set?).getD (([step].reverse.findSome? set?).getD value)) := by
    intro α set? value
    rw [List.reverse_cons, List.findSome?_append]
    cases steps.reverse.findSome? set? <;> rfl
  simp only [lastSet, hlater]

/-! ## Courses -/

/-- A step as it went: the session and the devices before it, what it answered, and the devices
behind it. -/
structure Moment (ρ σ : Type) where
  session : Session
  before : Devices ρ σ
  step : Step
  reply : Reply
  after : Devices ρ σ

namespace Moment

variable {ρ σ : Type}

/-- The calls that were made. -/
def calls (moment : Moment ρ σ) : List Call :=
  (moment.after.log.take (moment.after.log.length - moment.before.log.length)).reverse

/-- The bytes of the input that were seen. -/
def seen (moment : Moment ρ σ) : List UInt8 := moment.calls.flatMap Call.delivered

/-- The end of the input was reported. -/
def ReadsToEnd (moment : Moment ρ σ) : Prop := .read (.bytes []) ∈ moment.calls

theorem calls_eq {moment : Moment ρ σ} {calls : List Call}
    (h : moment.before.Makes calls moment.after) : moment.calls = calls := by
  unfold Devices.Makes at h
  rw [Moment.calls, h]
  simp

end Moment

section

variable {ρ σ : Type} [Source ρ] [Sink σ]

/-- The steps of a session as they went. -/
def course (session : Session) (devices : Devices ρ σ) : List Step → List (Moment ρ σ)
  | [] => []
  | step :: steps =>
    let taken := session.perform Devices.channel step devices
    ⟨session, devices, step, taken.1.1, taken.2⟩ :: taken.1.2.course taken.2 steps

/-- The devices as a course leaves them. -/
def devicesBehind (devices : Devices ρ σ) (course : List (Moment ρ σ)) : Devices ρ σ :=
  course.foldl (fun _ moment => moment.after) devices

/-- The fault of the empty document: it ends where a value should come. -/
def emptyFault : Failure := .malformed ⟨.endInValue, .start⟩

/-- What a step does by itself. -/
structure Moment.Alone (moment : Moment ρ σ) : Prop where
  /-- It makes calls, which the devices answer one after the other. -/
  answer : moment.before.Answer moment.calls moment.after
  /-- A run comes to the same, and does the same to the devices, as that of a new session on
  devices to which no call was made before. -/
  run : moment.step = .run →
    let fresh := moment.session.run Devices.channel ⟨moment.before.source, moment.before.sink, []⟩
    moment.reply = .ran fresh.1 ∧
      moment.after = ⟨fresh.2.source, fresh.2.sink, fresh.2.log ++ moment.before.log⟩
  /-- Any other step leaves the devices alone. -/
  still : moment.step ≠ .run → moment.after = moment.before
  /-- A question for the options is answered with them. -/
  asked : moment.step = .askOptions → moment.reply = .options moment.session.options

/-- The run of a moment comes to nothing: its fault is that of the empty document, and nothing is
offered. -/
structure Moment.Empty (moment : Moment ρ σ) : Prop where
  reply : moment.reply = .ran (.error emptyFault)
  fault : generate moment.session.rootName [] = .error emptyFault
  silent : ∀ offer answer, .write offer answer ∉ moment.calls

/-- What the steps of a course have to do with each other. -/
structure Independent (session : Session) (devices : Devices ρ σ) (course : List (Moment ρ σ)) :
    Prop where
  /-- A step finds the devices as they were left, and the options that were set last. -/
  follows : ∀ earlier moment later, course = earlier ++ moment :: later →
    moment.before = devicesBehind devices earlier ∧
      moment.session = ⟨session.rootName, lastSet session.options (earlier.map Moment.step)⟩
  /-- With these it goes its own way. -/
  alone : ∀ moment ∈ course, moment.Alone
  /-- What is delivered is seen by one step after the other. -/
  delivered : (devicesBehind devices course).delivered =
    devices.delivered ++ course.flatMap Moment.seen
  /-- What was left of the input is seen by one step after the other, or still left. -/
  input : ∀ left, Source.Leaves left → left devices.source =
    course.flatMap Moment.seen ++ left (devicesBehind devices course).source
  /-- If the source keeps to the end, no run behind a step that has read to the end comes to
  anything. -/
  exhausted : Source.KeepsEnd devices.source → ∀ earlier moment later, course =
    earlier ++ moment :: later → moment.ReadsToEnd → ∀ run ∈ later, run.step = .run → run.Empty

/-! ## Steps -/

/-- A step changes the options that it sets, and nothing else of the session. -/
theorem perform_session (session : Session) (step : Step) (devices : Devices ρ σ) :
    (session.perform Devices.channel step devices).1.2 =
      ⟨session.rootName, lastSet session.options [step]⟩ := by
  cases step <;> rfl

/-- Every step goes its own way. -/
theorem alone_perform (session : Session) (step : Step) (devices : Devices ρ σ) :
    let taken := session.perform Devices.channel step devices
    (Moment.mk session devices step taken.1.1 taken.2).Alone where
  answer := by
    obtain ⟨calls, hcalls⟩ := (onlyCalls_perform session step).answer devices
    rwa [Moment.calls_eq hcalls.makes]
  run hstep := by
    obtain rfl : step = .run := hstep
    -- the calls made before do not matter
    have hrun : session.run Devices.channel devices = _ :=
      (onlyCalls_run session).withEarlier ⟨devices.source, devices.sink, []⟩ devices.log
    show Reply.ran (session.run Devices.channel devices).1 = _ ∧
      (session.run Devices.channel devices).2 = _
    rw [hrun]
    exact ⟨rfl, rfl⟩
  still hstep := by
    cases step with
    | run => exact absurd rfl hstep
    | _ => rfl
  asked hstep := by
    obtain rfl : step = .askOptions := hstep
    rfl

/-- A run whose reading does not fail reads to the end of the input. -/
theorem readsToEnd_of_readAll (session : Session) {devices : Devices ρ σ} {sample : List UInt8}
    (h : devices.readAll.1 = .ok sample) :
    let taken := session.perform Devices.channel .run devices
    (Moment.mk session devices .run taken.1.1 taken.2).ReadsToEnd := by
  obtain ⟨reads, hreading, hreads, _⟩ := devices.readAll_reads
  obtain ⟨writes, _, hwrites, _⟩ := session.transcribe_offers devices
  obtain ⟨failure?, _, hflush, _⟩ :=
    flush_flushes (session.transcribe Devices.channel devices).2
  have hcalls : devices.Makes (reads.map .read ++ writes.map Write.call ++ [.flush failure?])
      (session.run Devices.channel devices).2 := by
    rw [run_eq]
    exact (hreads.append hwrites).append hflush
  have hend : ReadAnswer.bytes [] ∈ reads := (h ▸ hreading).end_mem
  show Call.read (.bytes []) ∈ Moment.calls _
  rw [Moment.calls_eq hcalls]
  simp [hend]

/-- A run at the end of the input comes to nothing. -/
theorem empty_of_ended (session : Session) {devices : Devices ρ σ}
    (h : Source.Ended devices.source) :
    let taken := session.perform Devices.channel .run devices
    (Moment.mk session devices .run taken.1.1 taken.2).Empty := by
  have hend := h devices.source .refl
  cases hread : Source.read devices.source with
  | mk answer source =>
    rw [hread] at hend
    obtain rfl : answer = .bytes [] := hend
    have htranscribe : session.transcribe Devices.channel devices =
        (.error emptyFault, ⟨source, devices.sink, .read (.bytes []) :: devices.log⟩) := by
      rw [transcribe_eq, Devices.readAll_eq hread]
      rfl
    obtain ⟨failure?, _, hflush, _⟩ :=
      flush_flushes (ρ := ρ) ⟨source, devices.sink, .read (.bytes []) :: devices.log⟩
    have hresult : (session.run Devices.channel devices).1 = .error emptyFault := by
      rw [run_eq, htranscribe]
      rfl
    have hcalls : devices.Makes [.read (.bytes []), .flush failure?]
        (session.run Devices.channel devices).2 := by
      rw [run_eq, htranscribe]
      exact hflush
    refine ⟨congrArg Reply.ran hresult, rfl, fun offer answer => ?_⟩
    rw [Moment.calls_eq hcalls]
    simp

/-! ## Whole courses -/

/-- Behind the end of the input no run comes to anything. -/
theorem empty_of_mem_course {devices : Devices ρ σ} (h : Source.Ended devices.source)
    (session : Session) (steps : List Step) :
    ∀ run ∈ session.course devices steps, run.step = .run → run.Empty := by
  induction steps generalizing session devices with
  | nil => intro run hrun; cases hrun
  | cons step steps ih =>
    intro run hrun hstep
    rcases List.mem_cons.mp hrun with rfl | hrun
    · obtain rfl : step = .run := hstep
      exact session.empty_of_ended h
    · exact ih (h.of_reaches (session.alone_perform step devices).answer.reaches) _ run hrun hstep

theorem Independent.nil (session : Session) (devices : Devices ρ σ) :
    session.Independent devices [] where
  follows earlier moment later heq := by simp at heq
  alone _ h := by cases h
  delivered := (List.append_nil _).symm
  input _ _ := rfl
  exhausted _ earlier moment later heq := by simp at heq

/-- One more step in front of an independent course. -/
theorem Independent.cons {session next : Session} {first : Moment ρ σ}
    {course : List (Moment ρ σ)} (hsession : first.session = session)
    (hnext : next = ⟨session.rootName, lastSet session.options [first.step]⟩)
    (halone : first.Alone)
    (hempty : Source.Ended first.after.source → ∀ run ∈ course, run.step = .run → run.Empty)
    (h : next.Independent first.after course) :
    session.Independent first.before (first :: course) where
  follows earlier moment later heq := by
    cases earlier with
    | nil =>
      obtain ⟨rfl, _⟩ := List.cons.inj heq
      exact ⟨rfl, hsession⟩
    | cons other earlier =>
      obtain ⟨rfl, hrest⟩ := List.cons.inj heq
      obtain ⟨hbefore, hoptions⟩ := h.follows earlier moment later hrest
      refine ⟨hbefore, ?_⟩
      rw [hoptions, List.map_cons, lastSet_cons session.options, hnext]
  alone := List.forall_mem_cons.mpr ⟨halone, h.alone⟩
  delivered := by
    have hfirst : first.after.delivered = first.before.delivered ++ first.seen := by
      unfold Devices.delivered
      rw [halone.answer.makes, List.reverse_append, List.reverse_reverse, List.flatMap_append]
      rfl
    rw [List.flatMap_cons, ← List.append_assoc, ← hfirst]
    exact h.delivered
  input left hleft := by
    rw [halone.answer.left hleft, h.input left hleft, List.flatMap_cons, List.append_assoc]
    rfl
  exhausted hkeeps earlier moment later heq hend := by
    cases earlier with
    | nil =>
      obtain ⟨rfl, rfl⟩ := List.cons.inj heq
      exact hempty (halone.answer.ended hkeeps hend)
    | cons other earlier =>
      obtain ⟨rfl, hrest⟩ := List.cons.inj heq
      exact h.exhausted (hkeeps.of_reaches halone.answer.reaches) earlier moment later hrest hend

/-- The runs of a session are independent of each other, whatever is done with it. -/
theorem independent_course (session : Session) (devices : Devices ρ σ) (steps : List Step) :
    (session.course devices steps).map Moment.step = steps ∧
      session.Independent devices (session.course devices steps) := by
  induction steps generalizing session devices with
  | nil => exact ⟨rfl, .nil session devices⟩
  | cons step steps ih =>
    obtain ⟨hsteps, hrest⟩ := ih (session.perform Devices.channel step devices).1.2
      (session.perform Devices.channel step devices).2
    refine ⟨congrArg (step :: ·) hsteps, ?_⟩
    exact .cons rfl (session.perform_session step devices) (session.alone_perform step devices)
      (fun hended => empty_of_mem_course hended _ steps) hrest

end

end Session

/-! ## Rehearsed sources -/

namespace Stream.RehearsedSource

/-- What is left of the input is what was planned to be handed out. -/
theorem leaves : Source.Leaves left := by
  intro source
  show source.left = source.read.1.chunk ++ source.read.2.left
  unfold read
  split
  · rfl
  · rfl
  · exact (List.take_append_drop _ _).symm

/-- Reporting the end leaves a rehearsed source as it is. -/
theorem read_eq_of_end {source : RehearsedSource} (h : source.read.1 = .bytes []) :
    source.read = (.bytes [], source) := by
  revert h
  unfold read
  split
  · intro h
    cases h
  · intro h
    cases h
  · intro h
    -- where nothing is taken nothing is dropped
    have hnothing : source.left.take source.width = [] := ReadAnswer.bytes.inj h
    have hleft : source.left.drop source.width = source.left := by
      conv_rhs => rw [← List.take_append_drop source.width source.left, hnothing]
      rfl
    have hfail : source.failAfter.map (· - 0) = source.failAfter := by
      cases source.failAfter <;> rfl
    simp only [hnothing, hleft, List.length_nil, hfail]

/-- Every rehearsed source keeps to the end once it has reported it. -/
theorem keepsEnd (source : RehearsedSource) : Source.KeepsEnd source := by
  intro later _ hend
  have hfixed : Source.read later = (.bytes [], later) := read_eq_of_end hend
  rw [hfixed]
  exact Source.ended_of_read hfixed

end Stream.RehearsedSource

namespace Session

open StructSketch.Stream

/-- The colliding document, read in pieces: the first run takes all of it, and the second one comes
to nothing. -/
theorem independent_course_colliding :
    let source : RehearsedSource :=
      { left := collidingDocument, chunk := some 3, interruptions := 1 }
    let sink : RehearsedSink := { width := some 2, room := some 9 }
    let session : Session := { rootName := "X" }
    let course := session.course ⟨source, sink, []⟩ [.run, .setPackage "models", .run]
    Source.KeepsEnd source ∧ Source.Leaves RehearsedSource.left ∧
      ∃ first setting last, course = [first, setting, last] ∧ first.ReadsToEnd ∧ last.Empty ∧
        last.session = ⟨"X", { package := "models" }⟩ := by
  intro source sink session course
  obtain ⟨_, hindependent⟩ :=
    session.independent_course ⟨source, sink, []⟩ [.run, .setPackage "models", .run]
  have hsource : Source.Delivers source source.left := RehearsedSource.delivers (by decide) rfl
  have hread : (Devices.mk source sink []).readAll.1 = .ok source.left :=
    Devices.readAll_of_delivers hsource sink []
  have hend := session.readsToEnd_of_readAll hread
  refine ⟨source.keepsEnd, RehearsedSource.leaves, _, _, _, rfl, hend, ?_, ?_⟩
  · exact hindependent.exhausted source.keepsEnd [] _ [_, _] rfl hend _ (by simp) rfl
  · exact (hindependent.follows [_, _] _ [] rfl).2

end Session

end StructSketch
