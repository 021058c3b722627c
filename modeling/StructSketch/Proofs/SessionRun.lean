import StructSketch.Proofs.Generation
import StructSketch.Proofs.Transcript
import StructSketch.Proofs.Utf8
import StructSketch.Session
import StructSketch.Stream.Rehearsal

/-!
# Runs of a session

* **`Transcript`**: the calls of one run, which are its reads, its writes and one flush at the end.
* **`Session.verdict`**: what a run comes to is told by its transcript. The first failure counts,
  of reading, of the sample, of writing and of flushing, in this order.
* **`Session.run_accounts`**: this is so on all devices, and what the sink takes is a beginning of
  the file of the sample.
* **`Session.run_eq_generate`**: on devices without faults a run writes the head of the file and
  the text of `generate`, or fails as `generate` does and writes nothing.
-/

namespace StructSketch

open StructSketch.Stream

/-! ## Transcripts -/

/-- The calls of one run. -/
structure Transcript where
  reads : List ReadAnswer
  writes : List Write
  /-- Why the flush failed, if it did. -/
  flush : Option String

namespace Transcript

/-- All calls, the flush as the last one. -/
def calls (transcript : Transcript) : List Call :=
  transcript.reads.map .read ++ transcript.writes.map Write.call ++ [.flush transcript.flush]

/-- The sample that was read. -/
def sample (transcript : Transcript) : Except String (List UInt8) :=
  valueUnless (transcript.reads.flatMap ReadAnswer.chunk)
    (transcript.reads.findSome? ReadAnswer.failure?)

/-- What came of the writes. -/
def written (transcript : Transcript) : Except String Unit :=
  valueUnless () (failureIn transcript.writes)

/-- What came of the flush. -/
def flushed (transcript : Transcript) : Except String Unit := valueUnless () transcript.flush

end Transcript

namespace Session

/-- The schema of what was read. -/
def schemaOf (session : Session) (sample : Except String (List UInt8)) :
    Except Failure Schema := do
  Schema.ofSample session.rootName (← sample.mapError Failure.device)

/-- The first failure of a run: of reading, of the sample, of writing, or of flushing. -/
def verdict (session : Session) (transcript : Transcript) : Except Failure Unit := do
  let _ ← session.schemaOf transcript.sample
  transcript.written.mapError Failure.device
  transcript.flushed.mapError Failure.device

theorem success_of_verdict {session : Session} {transcript : Transcript}
    (h : session.verdict transcript = .ok ()) :
    (∃ schema, session.schemaOf transcript.sample = .ok schema) ∧
      failureIn transcript.writes = none ∧ transcript.flush = none := by
  unfold verdict Transcript.written Transcript.flushed at h
  cases hschema : session.schemaOf transcript.sample with
  | error failure =>
    rw [hschema] at h
    cases h
  | ok schema =>
    rw [hschema] at h
    cases hwritten : failureIn transcript.writes with
    | some reason =>
      rw [hwritten] at h
      cases h
    | none =>
      rw [hwritten] at h
      cases hflushed : transcript.flush with
      | some reason =>
        rw [hflushed] at h
        cases h
      | none => exact ⟨⟨schema, rfl⟩, rfl, rfl⟩

/-- What is offered to a sink in view of what was read. -/
structure Offers (session : Session) (sample : Except String (List UInt8))
    (writes : List Write) : Prop where
  /-- Nothing is offered unless the whole sample was read and accepted. -/
  silent : ∀ failure, session.schemaOf sample = .error failure → writes = []
  /-- Nothing is offered behind a write that failed. -/
  stops : StopsAtFailure writes
  /-- What is taken is a beginning of the file, and the whole file if no write failed. -/
  file : ∀ schema, session.schemaOf sample = .ok schema →
    ∃ file, session.options.style.source schema = .ok file ∧
      acceptedIn writes <+: Text.bytes (file.header ++ file.body) ∧
      (failureIn writes = none → acceptedIn writes = Text.bytes (file.header ++ file.body))

/-- What a run comes to, told from its transcript. -/
structure Accounts (session : Session) (transcript : Transcript)
    (result : Except Failure Unit) : Prop where
  /-- Reading goes on up to the end of the input or a failure. -/
  reads : ∃ earlier last, transcript.reads = earlier ++ [last] ∧ last.goesOn = false ∧
    ∀ answer ∈ earlier, answer.goesOn = true
  offers : session.Offers transcript.sample transcript.writes
  /-- The first failure counts, whatever the flush does behind it. -/
  verdict : result = session.verdict transcript
  /-- A run that succeeds has got the whole file taken and flushed. -/
  success : result = .ok () → transcript.flush = none ∧
    ∃ schema file, session.schemaOf transcript.sample = .ok schema ∧
      session.options.style.source schema = .ok file ∧
      acceptedIn transcript.writes = Text.bytes (file.header ++ file.body)

/-! ## Writing a file -/

section

variable {ρ σ : Type} [Source ρ] [Sink σ]

/-- What a run of some writes comes to: it makes the writes of some texts, and an obliging sink
takes them all. -/
def Writes (before : Devices ρ σ) (texts : List (List UInt8))
    (after : Except Failure Unit × Devices ρ σ) : Prop :=
  ∃ writes result, WritingEach texts writes result ∧
    after.1 = result.mapError Failure.device ∧
    before.Makes (writes.map Write.call) after.2 ∧
    (Sink.Obliging before.sink → result = .ok () ∧ Sink.Obliging after.2.sink)

/-- Goes on after a successful write. -/
def afterWrite (written : Except Failure Unit × Devices ρ σ)
    (rest : StateM (Devices ρ σ) (Except Failure Unit)) : Except Failure Unit × Devices ρ σ :=
  match written with
  | (.error failure, after) => (.error failure, after)
  | (.ok (), after) => rest after

omit [Source ρ] [Sink σ] in
theorem bind_afterWrite (written : StateM (Devices ρ σ) (Except Failure Unit))
    (rest : StateM (Devices ρ σ) (Except Failure Unit)) (devices : Devices ρ σ) :
    (written >>= fun
      | .error failure => pure (.error failure)
      | .ok () => rest : StateM (Devices ρ σ) (Except Failure Unit)) devices =
        afterWrite (written devices) rest := by
  simp only [Bind.bind, StateT.bind]
  rcases written devices with ⟨failure | _, after⟩ <;> rfl

theorem Writes.next {devices : Devices ρ σ} {text : String} {texts : List (List UInt8)}
    {rest : StateM (Devices ρ σ) (Except Failure Unit)}
    (hrest : ∀ between, Writes between texts (rest between)) :
    Writes devices (Text.bytes text :: texts)
      (afterWrite (write Devices.channel text devices) rest) := by
  obtain ⟨writes, hwriting, hcalls, hobliging⟩ := devices.writeAll_writes (Text.bytes text)
  have hwrite : write Devices.channel text devices =
      ((devices.writeAll (Text.bytes text)).1.mapError Failure.device,
        (devices.writeAll (Text.bytes text)).2) := rfl
  rw [hwrite]
  generalize devices.writeAll (Text.bytes text) = written at hwriting hcalls hobliging
  obtain ⟨result, between⟩ := written
  cases result with
  | error reason =>
    refine ⟨writes, .error reason, .failed hwriting, rfl, hcalls, fun h => ?_⟩
    cases (hobliging h).1
  | ok =>
    obtain ⟨writes', result, hwriting', hresult, hcalls', hobliging'⟩ := hrest between
    refine ⟨writes ++ writes', result, .next hwriting hwriting', hresult, ?_, fun h => ?_⟩
    · rw [List.map_append]
      exact hcalls.append hcalls'
    · exact hobliging' (hobliging h).2

/-- Writing declarations makes the writes of their texts. -/
theorem writeDeclarations_writes {style : Go.Style} {table : TypeTable} {handles : List Handle}
    {texts : List String}
    (h : List.Forall₂ (fun handle text => style.declaration table handle = .ok text) handles
      texts) (devices : Devices ρ σ) :
    Writes devices (texts.map Text.bytes)
      (writeDeclarations Devices.channel style table handles devices) := by
  induction h generalizing devices with
  | nil => exact ⟨[], .ok (), .done, rfl, rfl, fun h => ⟨rfl, h⟩⟩
  | @cons handle text handles texts htext _ ih =>
    have hstep : writeDeclarations Devices.channel style table (handle :: handles) devices =
        afterWrite (write Devices.channel text devices)
          (writeDeclarations Devices.channel style table handles) := by
      rw [writeDeclarations, htext]
      exact bind_afterWrite _ _ _
    rw [hstep]
    exact .next ih

/-- Writing the file of a schema makes the writes of its head and of its declarations. -/
theorem writeFile_writes {style : Go.Style} {schema : Schema} {texts : List String}
    (h : style.declarations schema = .ok texts) (devices : Devices ρ σ) :
    Writes devices ((style.header :: texts).map Text.bytes)
      (writeFile Devices.channel style schema devices) := by
  have hstep : writeFile Devices.channel style schema devices =
      afterWrite (write Devices.channel style.header devices)
        (writeDeclarations Devices.channel style schema.table schema.order) :=
    bind_afterWrite _ _ _
  rw [hstep]
  exact .next (writeDeclarations_writes (forall₂_of_mapM_eq_ok h))

/-! ## A whole run -/

theorem transcribe_eq (session : Session) (devices : Devices ρ σ) :
    session.transcribe Devices.channel devices =
      match session.schemaOf devices.readAll.1 with
      | .error failure => (.error failure, devices.readAll.2)
      | .ok schema => writeFile Devices.channel session.options.style schema devices.readAll.2 := by
  have hread : Devices.channel.readAll devices = devices.readAll := rfl
  simp only [transcribe, Bind.bind, StateT.bind, hread]
  rcases devices.readAll with ⟨reason | sample, after⟩
  · rfl
  · simp only [schemaOf, Except.mapError, Bind.bind, Except.bind]
    cases Schema.ofSample session.rootName sample <;> rfl

theorem run_eq (session : Session) (devices : Devices ρ σ) :
    session.run Devices.channel devices =
      let between := (session.transcribe Devices.channel devices).2
      ((do
        (session.transcribe Devices.channel devices).1
        between.flush.1.mapError Failure.device), between.flush.2) := by
  have hflush : ∀ between : Devices ρ σ, Devices.channel.flush between = between.flush :=
    fun _ => rfl
  simp only [run, Bind.bind, StateT.bind, hflush]
  rcases session.transcribe Devices.channel devices with ⟨failure | _, between⟩ <;> rfl

omit [Source ρ] [Sink σ] in
/-- Every schema of what was read can be written in every style. -/
theorem declarations_of_schemaOf {session : Session} {sample : Except String (List UInt8)}
    {schema : Schema} (h : session.schemaOf sample = .ok schema) (style : Go.Style) :
    ∃ texts, style.declarations schema = .ok texts := by
  cases sample with
  | error reason => cases h
  | ok sample =>
    obtain ⟨members, _, rfl⟩ := Schema.ofSample_eq_ok.mp h
    exact ⟨_, Outline.declarations_schema _ style⟩

theorem transcribe_offers (session : Session) (devices : Devices ρ σ) :
    ∃ writes, session.Offers devices.readAll.1 writes ∧
      devices.readAll.2.Makes (writes.map Write.call)
        (session.transcribe Devices.channel devices).2 ∧
      (session.transcribe Devices.channel devices).1 = (do
        let _ ← session.schemaOf devices.readAll.1
        (valueUnless () (failureIn writes)).mapError Failure.device) ∧
      (Sink.Obliging devices.readAll.2.sink → failureIn writes = none ∧
        Sink.Obliging (session.transcribe Devices.channel devices).2.sink) := by
  rw [transcribe_eq]
  cases hschema : session.schemaOf devices.readAll.1 with
  | error failure =>
    refine ⟨[], ⟨fun _ _ => rfl, .nil, fun schema h => ?_⟩, rfl, rfl, fun h => ⟨rfl, h⟩⟩
    rw [hschema] at h
    cases h
  | ok schema =>
    obtain ⟨texts, htexts⟩ := declarations_of_schemaOf hschema session.options.style
    obtain ⟨writes, result, hwriting, hresult, hcalls, hobliging⟩ :=
      writeFile_writes htexts devices.readAll.2
    have hsource : session.options.style.source schema =
        .ok ⟨session.options.style.header, String.join texts⟩ := by
      rw [Go.Style.source, htexts]
      rfl
    have hbytes : Text.bytes (session.options.style.header ++ String.join texts) =
        ((session.options.style.header :: texts).map Text.bytes).flatten := by
      rw [Text.bytes_append, Text.bytes_join, List.map_cons, List.flatten_cons]
    have hoffers : session.Offers devices.readAll.1 writes := by
      refine ⟨fun failure h => ?_, hwriting.stopsAtFailure, fun schema' h => ?_⟩
      · rw [hschema] at h
        cases h
      · obtain rfl : schema = schema' := Except.ok.inj (hschema.symm.trans h)
        refine ⟨_, hsource, ?_, fun hnone => ?_⟩
        · rw [hbytes]
          exact hwriting.accepted.1
        · rw [hbytes]
          refine hwriting.accepted.2 ?_
          rw [hwriting.result_eq, hnone]
          rfl
    refine ⟨writes, hoffers, hcalls, ?_, fun h => ?_⟩
    · rw [hresult, hwriting.result_eq]
      rfl
    · obtain ⟨hok, hsink⟩ := hobliging h
      exact ⟨eq_none_of_valueUnless (hok.symm.trans hwriting.result_eq), hsink⟩

omit [Source ρ] in
/-- Flushing makes one call and comes to its failure. -/
theorem flush_flushes (devices : Devices ρ σ) :
    ∃ failure?, devices.flush.1 = valueUnless () failure? ∧
      devices.Makes [.flush failure?] devices.flush.2 ∧
      (Sink.Obliging devices.sink → failure? = none) := by
  refine ⟨(Sink.flush devices.sink).1, ?_⟩
  have hflushes : Sink.Obliging devices.sink → (Sink.flush devices.sink).1 = none :=
    fun h => h.flushes _ .refl
  unfold Devices.flush
  generalize Sink.flush devices.sink = answer at hflushes ⊢
  obtain ⟨failure? | reason, sink⟩ := answer
  · exact ⟨rfl, rfl, hflushes⟩
  · exact ⟨rfl, rfl, hflushes⟩

/-- Whatever the devices do, a run makes the calls of a transcript and comes to what the
transcript tells: the flush is its last call, nothing is offered unless the sample was accepted,
what is taken is a beginning of the file, and the first failure is the result. -/
theorem run_accounts (session : Session) (devices : Devices ρ σ) :
    ∃ transcript : Transcript,
      (session.run Devices.channel devices).2.log = transcript.calls.reverse ++ devices.log ∧
      session.Accounts transcript (session.run Devices.channel devices).1 := by
  obtain ⟨reads, hreading, hreads, _⟩ := devices.readAll_reads
  obtain ⟨writes, hoffers, hwrites, hresult, _⟩ := session.transcribe_offers devices
  obtain ⟨failure?, hflushed, hflush, _⟩ :=
    flush_flushes (session.transcribe Devices.channel devices).2
  have hsample : devices.readAll.1 = (Transcript.mk reads writes failure?).sample :=
    hreading.result_eq
  rw [hsample] at hoffers hresult
  have hverdict : (session.run Devices.channel devices).1 =
      session.verdict ⟨reads, writes, failure?⟩ := by
    rw [run_eq]
    simp only [hresult, hflushed]
    unfold verdict
    cases session.schemaOf (Transcript.mk reads writes failure?).sample <;> rfl
  refine ⟨⟨reads, writes, failure?⟩, ?_, hreading.ends, hoffers, hverdict, fun hok => ?_⟩
  · rw [run_eq]
    exact (hreads.append hwrites).append hflush
  · obtain ⟨⟨schema, hschema⟩, hnone, hflush⟩ := success_of_verdict (hverdict.symm.trans hok)
    obtain ⟨file, hfile, _, hall⟩ := hoffers.file schema hschema
    exact ⟨hflush, schema, file, hschema, hfile, hall hnone⟩

/-- On devices without faults a run comes to what `generate` does. It writes the head of the file
and the text of `generate`, or nothing if `generate` fails. -/
theorem run_eq_generate (session : Session) (devices : Devices ρ σ) (input : List UInt8)
    (hsource : Source.Delivers devices.source input) (hsink : Sink.Obliging devices.sink) :
    (session.run Devices.channel devices).1 =
        (generate session.rootName input).map (fun _ => ()) ∧
      (session.run Devices.channel devices).2.accepted = devices.accepted ++
        match generate session.rootName input with
        | .ok text => Text.bytes session.options.style.header ++ Text.bytes text
        | .error _ => [] := by
  have hread : devices.readAll.1 = .ok input := Devices.readAll_of_delivers hsource _ _
  obtain ⟨reads, hreading, hreads, hkept⟩ := devices.readAll_reads
  obtain ⟨writes, hoffers, hwrites, hresult, htaken⟩ := session.transcribe_offers devices
  obtain ⟨failure?, hflushed, hflush, hdone⟩ :=
    flush_flushes (session.transcribe Devices.channel devices).2
  rw [hkept] at htaken
  obtain ⟨hnone, hobliging⟩ := htaken hsink
  obtain rfl := hdone hobliging
  have haccepted : (session.run Devices.channel devices).2.accepted =
      devices.accepted ++ acceptedIn writes := by
    rw [run_eq]
    -- reads and the flush take nothing
    have hnothing : (reads.map Call.read).flatMap Call.accepted = [] := by
      simp [Call.accepted]
    simp only [((hreads.append hwrites).append hflush).accepted, List.flatMap_append, hnothing]
    simp [acceptedIn, List.flatMap_map, Call.accepted]
  rw [haccepted, run_eq]
  simp only [hresult, hflushed, hnone]
  rw [hread] at hoffers ⊢
  have hsample : session.schemaOf (.ok input) = Schema.ofSample session.rootName input := rfl
  cases hschema : Schema.ofSample session.rootName input with
  | error failure =>
    have hgenerate : generate session.rootName input = .error failure := by
      rw [generate, hschema]
    rw [hsample, hschema, hgenerate, hoffers.silent failure (hsample.trans hschema)]
    exact ⟨rfl, rfl⟩
  | ok schema =>
    -- the streamed file and the text are both indented by tabs
    obtain ⟨members, hparse, rfl⟩ := Schema.ofSample_eq_ok.mp hschema
    obtain ⟨file, hfile, _, hall⟩ := hoffers.file _ (hsample.trans hschema)
    rw [Outline.source_schema] at hfile
    obtain rfl := Except.ok.inj hfile
    rw [hsample, hschema, hall hnone, generate_of_ofSample hparse, Text.bytes_append]
    exact ⟨rfl, rfl⟩

end

end Session

/-! ## Rehearsed devices -/

namespace Stream

theorem getD_pos {limit : Option Nat} {count : Nat} (hlimit : limit ≠ some 0) (hcount : 0 < count) :
    0 < limit.getD count := by
  cases limit with
  | none => exact hcount
  | some width => exact Nat.pos_of_ne_zero fun hzero => hlimit (congrArg some hzero)

/-- A rehearsed source that does not fail delivers all its bytes. -/
theorem RehearsedSource.delivers {source : RehearsedSource} (hchunk : source.chunk ≠ some 0)
    (hfail : source.failAfter = none) : Source.Delivers source source.left := by
  obtain ⟨left, chunk, interruptions, failAfter, failsOnce⟩ := source
  obtain rfl : failAfter = none := hfail
  change chunk ≠ some 0 at hchunk
  induction interruptions with
  | succ rest ih => exact .interrupted rfl ih
  | zero =>
    induction h : left.length using Nat.strong_induction_on generalizing left with
    | h count ih =>
      subst h
      by_cases hleft : left = []
      · subst hleft
        have hread : Source.read (⟨[], chunk, 0, none, failsOnce⟩ : RehearsedSource) =
            (.bytes [], ⟨[], chunk, 0, none, failsOnce⟩) := by
          simp [Source.read, read]
        exact .ended hread
      · have hpos := List.length_pos_iff.mpr hleft
        have hwidth := getD_pos hchunk hpos
        have htake : left.take (chunk.getD left.length) ≠ [] := by
          simp only [ne_eq, List.take_eq_nil_iff, hleft, or_false]
          omega
        have hrest := ih (left.drop (chunk.getD left.length)).length
          (by rw [List.length_drop]; omega) _ rfl
        have hall : Source.Delivers (⟨left, chunk, 0, none, failsOnce⟩ : RehearsedSource)
            (left.take (chunk.getD left.length) ++ left.drop (chunk.getD left.length)) :=
          .bytes rfl htake hrest
        rwa [List.take_append_drop] at hall

/-- A rehearsed sink that has room and does not fail is obliging. -/
theorem RehearsedSink.obliging {sink : RehearsedSink} (hwidth : sink.width ≠ some 0)
    (hroom : sink.room = none) (hflush : sink.failsToFlush = false) : Sink.Obliging sink := by
  refine Sink.obliging_of_invariant
    (fun sink : RehearsedSink =>
      sink.width ≠ some 0 ∧ sink.room = none ∧ sink.failsToFlush = false) ?_ ?_ ?_
    ⟨hwidth, hroom, hflush⟩
  · rintro ⟨width, interruptions, room, failsToFlush⟩ ⟨hwidth, rfl, rfl⟩ offer
    cases interruptions <;> exact ⟨hwidth, rfl, rfl⟩
  · rintro ⟨width, interruptions, room, failsToFlush⟩ ⟨hwidth, rfl, rfl⟩ offer hoffer
    cases interruptions with
    | succ rest => exact .inl rfl
    | zero =>
      change width ≠ some 0 at hwidth
      have hpos := List.length_pos_iff.mpr hoffer
      have hcount := getD_pos hwidth hpos
      refine .inr ⟨min offer.length (width.getD offer.length) - 1, ?_⟩
      show WriteAnswer.taken (min offer.length (width.getD offer.length)) = _
      rw [Nat.sub_add_cancel (by omega)]
  · rintro ⟨width, interruptions, room, failsToFlush⟩ ⟨_, rfl, rfl⟩
    rfl

end Stream

namespace Session

/-- The colliding document, handed out three bytes at a time to a sink that takes two. -/
theorem run_eq_generate_colliding :
    let source : RehearsedSource :=
      { left := collidingDocument, chunk := some 3, interruptions := 1 }
    let sink : RehearsedSink := { width := some 2, interruptions := 1 }
    let session : Session := { rootName := "X", options := { importJson := true } }
    let after := session.run Devices.channel ⟨source, sink, []⟩
    Source.Delivers source collidingDocument ∧ Sink.Obliging sink ∧ after.1 = .ok () ∧
      after.2.accepted = Text.bytes session.options.style.header ++
        Text.bytes ((Outline.ofSample "X" (.object collidingMembers)).text "\t") := by
  intro source sink session after
  have hsource : Source.Delivers source source.left := RehearsedSource.delivers (by decide) rfl
  have hsink : Sink.Obliging sink := RehearsedSink.obliging (by decide) rfl rfl
  have hrun := session.run_eq_generate ⟨source, sink, []⟩ _ hsource hsink
  have hnothing : (Devices.mk source sink []).accepted = [] := rfl
  rw [generate_of_ofSample parse_collidingDocument, hnothing, List.nil_append] at hrun
  exact ⟨hsource, hsink, hrun.1, hrun.2⟩

end Session

end StructSketch
