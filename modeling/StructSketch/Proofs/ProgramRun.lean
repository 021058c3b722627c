import StructSketch.Proofs.CommandLines
import StructSketch.Proofs.FileTrees
import StructSketch.Proofs.Generation
import StructSketch.Proofs.Utf8

/-!
# Runs of the program on files

* **`World.holding`**: the world in which an output holds a text. A session writes there behind
  what the output holds (`write_holding`, `writeFile_holding`).
* **`Ends`**: the ways in which a sketch comes to its end, with the complaint and the world that it
  leaves. **`Program.sketch_ends`** and **`Program.run_ends`**: there are no others.
* **`Outcome`**: what a run of a sketch comes to, told from the world before it.
  **`Program.outcome_of_run`**: every command line that asks for a sketch comes to this.
* **`Program.content?_input_of_run`**: a run leaves the file of its input as it was, unless the
  input is the output too. **`Program.content?_input_changes`**: then it does not.
-/

namespace StructSketch.CommandLine

/-! ## Inputs and outputs -/

/-- The place that is found for a path; without a path it is the standard stream. -/
def Endpoint.ofPath? (find : String → Except PathError (List String)) :
    Option String → Except PathError Endpoint
  | none => .ok .standard
  | some path => (find path).map .node

theorem Endpoint.ofPath?_eq_ok {find : String → Except PathError (List String)}
    {path? : Option String} {endpoint : Endpoint} :
    ofPath? find path? = .ok endpoint ↔ path? = none ∧ endpoint = .standard ∨
      ∃ path place, path? = some path ∧ find path = .ok place ∧ endpoint = .node place := by
  cases path? with
  | none => simp [ofPath?, eq_comm]
  | some path => cases h : find path <;> simp [ofPath?, h, Except.map, eq_comm]

namespace World

/-- What a sketch reads from: the standard input, or what stands where the path leads to. -/
def inputOf (world : World) : Option String → Except PathError Endpoint :=
  Endpoint.ofPath? world.tree.openPlace

/-- What a sketch writes to: the standard output, or the file that the path is created as. -/
def outputOf (world : World) : Option String → Except PathError Endpoint :=
  Endpoint.ofPath? world.tree.createPlace

/-- What can be read from an input. From a directory nothing can be read. -/
def contentOf? (world : World) : Endpoint → Option (List UInt8)
  | .standard => some world.standardInput
  | .node place =>
    match world.tree.get? place with
    | some (.file content) => some content
    | _ => none

/-- The world after an input was read to its end. -/
def drained (world : World) : Endpoint → World
  | .standard => { world with standardInput := [] }
  | .node _ => world

/-- The world in which an output holds a text: the standard output behind what was printed
before, and a file as its whole content. -/
def holding (world : World) (output : Endpoint) (text : List UInt8) : World :=
  match output with
  | .standard => { world with standardOutput := world.standardOutput ++ text }
  | .node place => { world with tree := world.tree.put place (.file text) }

theorem outputOf_ne_root {world : World} {path? : Option String} {output : Endpoint}
    (h : world.outputOf path? = .ok output) : output ≠ .node [] := by
  rcases Endpoint.ofPath?_eq_ok.mp h with ⟨_, rfl⟩ | ⟨path, place, _, hplace, rfl⟩
  · exact fun hroot => nomatch hroot
  · intro hroot
    cases hroot
    exact FileTree.ne_nil_of_get?_ne (FileTree.of_createPlace hplace).1 rfl

theorem drained_tree (world : World) (input : Endpoint) :
    (world.drained input).tree = world.tree := by
  cases input <;> rfl

theorem drained_holding (world : World) (input output : Endpoint) (text : List UInt8) :
    (world.holding output text).drained input = (world.drained input).holding output text := by
  cases input <;> cases output <;> rfl

theorem readAll_eq (world : World) (input : Endpoint) :
    ∃ reason, readAll input world =
      (match world.contentOf? input with
        | some content => .ok content
        | none => .error reason, world.drained input) := by
  cases input with
  | standard => exact ⟨"", rfl⟩
  | node place =>
    rw [readAll, contentOf?]
    rcases world.tree.get? place with _ | ⟨content⟩ | _
    · exact ⟨_, rfl⟩
    · exact ⟨"", rfl⟩
    · exact ⟨_, rfl⟩

/-- What is written stands behind what the output holds. -/
theorem writeAll_holding (world : World) {output : Endpoint} (houtput : output ≠ .node [])
    (done text : List UInt8) :
    writeAll output text (world.holding output done) =
      (.ok (), world.holding output (done ++ text)) := by
  cases output with
  | standard => simp [writeAll, holding]
  | node place =>
    have hplace : place ≠ [] := fun h => houtput (congrArg Endpoint.node h)
    simp [writeAll, holding, FileTree.get?_put_self hplace, FileTree.put_put]

end World

/-! ## Sessions on files -/

section

variable {world between : World} {input output : Endpoint}

theorem bind_of_eq {α β : Type} {first : StateM World α} {next : α → StateM World β} {a : α}
    (h : first world = (a, between)) : (first >>= next) world = next a between := by
  show (match first world with | (a, between) => next a between) = _
  rw [h]

theorem write_holding (houtput : output ≠ .node []) (done : List UInt8) (text : String) :
    Session.write (World.host.channel input output) text (world.holding output done) =
      (.ok (), world.holding output (done ++ Text.bytes text)) := by
  rw [Session.write]
  exact (bind_of_eq (world.writeAll_holding houtput done (Text.bytes text))).trans rfl

theorem writeDeclarations_holding {style : Go.Style} {table : TypeTable} {handles : List Handle}
    {texts : List String} (houtput : output ≠ .node [])
    (h : List.Forall₂ (fun handle text => style.declaration table handle = .ok text) handles texts)
    (done : List UInt8) :
    Session.writeDeclarations (World.host.channel input output) style table handles
        (world.holding output done) =
      (.ok (), world.holding output (done ++ (texts.map Text.bytes).flatten)) := by
  induction h generalizing done with
  | nil =>
    rw [List.map_nil, List.flatten_nil, List.append_nil]
    rfl
  | @cons handle text handles texts htext _ ih =>
    rw [Session.writeDeclarations, htext]
    refine (bind_of_eq (write_holding houtput done text)).trans ((ih _).trans ?_)
    rw [List.map_cons, List.flatten_cons, List.append_assoc]

theorem writeFile_holding {style : Go.Style} {schema : Schema} {texts : List String}
    (houtput : output ≠ .node []) (h : style.declarations schema = .ok texts) :
    Session.writeFile (World.host.channel input output) style schema (world.holding output []) =
      (.ok (), world.holding output (Text.bytes (style.header ++ String.join texts))) := by
  rw [Session.writeFile]
  refine (bind_of_eq (write_holding houtput [] style.header)).trans
    ((writeDeclarations_holding houtput (forall₂_of_mapM_eq_ok h) _).trans ?_)
  rw [List.nil_append, Text.bytes_append, Text.bytes_join]

/-- Flushing does nothing to a world, so a run ends where its transcription ends. -/
theorem run_of_transcribe {session : Session} {result : Except Failure Unit}
    (h : session.transcribe (World.host.channel input output) world = (result, between)) :
    session.run (World.host.channel input output) world = (result, between) := by
  rw [Session.run]
  refine (bind_of_eq h).trans ?_
  cases result <;> rfl

theorem run_of_contentOf?_eq_none (session : Session) (h : world.contentOf? input = none) :
    ∃ reason, session.run (World.host.channel input output) world =
      (.error (.device reason), world.drained input) := by
  obtain ⟨reason, hread⟩ := world.readAll_eq input
  rw [h] at hread
  exact ⟨reason, run_of_transcribe (bind_of_eq hread)⟩

theorem run_of_generate_eq_error {session : Session} {sample : List UInt8} {failure : Failure}
    (hsample : world.contentOf? input = some sample)
    (h : generate session.rootName sample = .error failure) :
    session.run (World.host.channel input output) world = (.error failure, world.drained input) := by
  obtain ⟨reason, hread⟩ := world.readAll_eq input
  rw [hsample] at hread
  refine run_of_transcribe ((bind_of_eq hread).trans ?_)
  simp only [ofSample_of_generate_eq_error h]
  rfl

theorem run_of_generate_eq_ok {session : Session} {sample : List UInt8} {text : String}
    (houtput : output ≠ .node [])
    (hsample : (world.holding output []).contentOf? input = some sample)
    (h : generate session.rootName sample = .ok text) :
    session.run (World.host.channel input output) (world.holding output []) =
      (.ok (), (world.drained input).holding output
        (Text.bytes (session.options.style.header ++ text))) := by
  obtain ⟨schema, texts, hschema, htexts, rfl⟩ := exists_declarations_of_generate h session.options
  obtain ⟨reason, hread⟩ := (world.holding output []).readAll_eq input
  rw [hsample, World.drained_holding] at hread
  refine run_of_transcribe ((bind_of_eq hread).trans ?_)
  simp only [hschema]
  exact writeFile_holding houtput htexts

end

/-! ## Sketches -/

/-- The ways in which a sketch comes to its end, and the world that it leaves. -/
inductive Ends (what : Sketch) (world : World) : Except Complaint Unit → World → Prop
  | inputRefused {path error} : what.input = some path →
      world.inputOf what.input = .error error →
      Ends what world (.error ⟨"failed to open " ++ path, [error.text]⟩) world
  | outputRefused {input path error} : world.inputOf what.input = .ok input →
      what.output = some path → world.outputOf what.output = .error error →
      Ends what world (.error ⟨"failed to create " ++ path, [error.text]⟩) world
  | unreadable {input output reason} : world.inputOf what.input = .ok input →
      world.outputOf what.output = .ok output →
      (world.holding output []).contentOf? input = none →
      Ends what world
        (.error ⟨"failed to generate Go declarations", (Failure.device reason).causes⟩)
        ((world.drained input).holding output [])
  | rejected {input output sample failure} : world.inputOf what.input = .ok input →
      world.outputOf what.output = .ok output →
      (world.holding output []).contentOf? input = some sample →
      generate what.session.rootName sample = .error failure →
      Ends what world (.error ⟨"failed to generate Go declarations", failure.causes⟩)
        ((world.drained input).holding output [])
  | written {input output sample text} : world.inputOf what.input = .ok input →
      world.outputOf what.output = .ok output →
      (world.holding output []).contentOf? input = some sample →
      generate what.session.rootName sample = .ok text →
      Ends what world (.ok ())
        ((world.drained input).holding output
          (Text.bytes (what.session.options.style.header ++ text)))

namespace Program

theorem openInput_eq (input : Option String) (world : World) :
    (∃ path error, input = some path ∧ world.inputOf input = .error error ∧
      openInput World.host input world =
        (.error ⟨"failed to open " ++ path, [error.text]⟩, world)) ∨
    ∃ endpoint, world.inputOf input = .ok endpoint ∧
      openInput World.host input world = (.ok endpoint, world) := by
  cases input with
  | none => exact .inr ⟨_, rfl, rfl⟩
  | some path =>
    cases hplace : world.tree.openPlace path with
    | error error =>
      have hopen : World.openFile path world = (.error error.text, world) := by
        rw [World.openFile, hplace]
      exact .inl ⟨path, error, rfl, congrArg (Except.map Endpoint.node) hplace, bind_of_eq hopen⟩
    | ok place =>
      have hopen : World.openFile path world = (.ok (.node place), world) := by
        rw [World.openFile, hplace]
      exact .inr ⟨.node place, congrArg (Except.map Endpoint.node) hplace, bind_of_eq hopen⟩

theorem createOutput_eq (output : Option String) (world : World) :
    (∃ path error, output = some path ∧ world.outputOf output = .error error ∧
      createOutput World.host output world =
        (.error ⟨"failed to create " ++ path, [error.text]⟩, world)) ∨
    ∃ endpoint, world.outputOf output = .ok endpoint ∧
      createOutput World.host output world = (.ok endpoint, world.holding endpoint []) := by
  cases output with
  | none => exact .inr ⟨.standard, rfl, by simp [World.holding]; rfl⟩
  | some path =>
    cases hplace : world.tree.createPlace path with
    | error error =>
      have hcreate : World.createFile path world = (.error error.text, world) := by
        rw [World.createFile, hplace]
      exact .inl ⟨path, error, rfl, congrArg (Except.map Endpoint.node) hplace, bind_of_eq hcreate⟩
    | ok place =>
      have hcreate : World.createFile path world =
          (.ok (.node place), world.holding (.node place) []) := by
        rw [World.createFile, hplace]
        rfl
      exact .inr ⟨.node place, congrArg (Except.map Endpoint.node) hplace, bind_of_eq hcreate⟩

theorem sketch_ends (what : Sketch) (world : World) :
    Ends what world (sketch World.host what world).1 (sketch World.host what world).2 := by
  have hsketch : sketch World.host what = openInput World.host what.input >>= _ := rfl
  rcases openInput_eq what.input world with
    ⟨path, error, hpath, hplace, hopen⟩ | ⟨input, hinput, hopen⟩
  · rw [hsketch, bind_of_eq hopen]
    exact .inputRefused hpath hplace
  rcases createOutput_eq what.output world with
    ⟨path, error, hpath, hplace, hcreate⟩ | ⟨output, houtput, hcreate⟩
  · have hrun : sketch World.host what world = _ :=
      (bind_of_eq hopen).trans (bind_of_eq hcreate)
    rw [hrun]
    exact .outputRefused hinput hpath hplace
  -- both are there, so the session decides
  have hrun : ∀ {result after}, what.session.run (World.host.channel input output)
      (world.holding output []) = (result, after) →
        sketch World.host what world =
          (result.mapError fun failure =>
            ⟨"failed to generate Go declarations", failure.causes⟩, after) := fun h =>
    (bind_of_eq hopen).trans ((bind_of_eq hcreate).trans (bind_of_eq h))
  cases hsample : (world.holding output []).contentOf? input with
  | none =>
    obtain ⟨reason, hsession⟩ := run_of_contentOf?_eq_none what.session hsample
    rw [hrun hsession, World.drained_holding]
    exact .unreadable hinput houtput hsample
  | some sample =>
    cases hgenerate : generate what.session.rootName sample with
    | error failure =>
      rw [hrun (run_of_generate_eq_error hsample hgenerate), World.drained_holding]
      exact .rejected hinput houtput hsample hgenerate
    | ok text =>
      rw [hrun (run_of_generate_eq_ok (World.outputOf_ne_root houtput) hsample hgenerate)]
      exact .written hinput houtput hsample hgenerate

/-- The exit code behind a sketch. -/
def exitCode : Except Complaint Unit → UInt32
  | .ok () => 0
  | .error _ => 1

/-- The report behind a sketch: of a complaint, if there is one. -/
def report : Except Complaint Unit → List UInt8
  | .ok () => []
  | .error complaint => Text.bytes complaint.report

/-- A command line that asks for a sketch makes it, reports the complaint and ends. -/
theorem run_ends {arguments : List String} {what : Sketch}
    (h : Request.ofArguments arguments = .ok (.sketch what)) (world : World) :
    ∃ result between, Ends what world result between ∧
      run World.host arguments world = (exitCode result,
        { between with standardError := between.standardError ++ report result }) := by
  refine ⟨_, _, sketch_ends what world, ?_⟩
  rw [run, h]
  rcases hsketch : sketch World.host what world with ⟨complaint | _, between⟩
  · exact bind_of_eq hsketch
  · refine (bind_of_eq hsketch).trans ?_
    rw [report, List.append_nil]
    rfl

end Program

/-! ## What a run leaves behind -/

/-- The destination of a sketch, which is the output file or else the standard output, has got
exactly a text, and with an output file nothing is printed. -/
def Sketch.Fills (what : Sketch) (before : World) (text : List UInt8) (after : World) : Prop :=
  match what.output with
  | none => after.standardOutput = before.standardOutput ++ text
  | some path =>
    after.standardOutput = before.standardOutput ∧ after.tree.content? path = some text

variable {what : Sketch} {world between : World} {result : Except Complaint Unit}

theorem Sketch.fills_holding {output : Endpoint} (h : world.outputOf what.output = .ok output)
    (input : Endpoint) (text : List UInt8) :
    what.Fills world text ((world.drained input).holding output text) := by
  unfold Fills
  rcases Endpoint.ofPath?_eq_ok.mp h with ⟨hnone, rfl⟩ | ⟨path, place, hsome, hplace, rfl⟩
  · rw [hnone]
    cases input <;> rfl
  · rw [hsome]
    refine ⟨by cases input <;> rfl, ?_⟩
    rw [World.holding, World.drained_tree]
    exact FileTree.content?_put_of_createPlace hplace

/-- A sketch leaves the world as it was, or has an input and an output that holds some text. -/
theorem Ends.eq_or_holding (h : Ends what world result between) :
    between = world ∨ ∃ input output text, world.inputOf what.input = .ok input ∧
      world.outputOf what.output = .ok output ∧
      between = (world.drained input).holding output text := by
  cases h with
  | inputRefused => exact .inl rfl
  | outputRefused => exact .inl rfl
  | unreadable hinput houtput => exact .inr ⟨_, _, _, hinput, houtput, rfl⟩
  | rejected hinput houtput => exact .inr ⟨_, _, _, hinput, houtput, rfl⟩
  | written hinput houtput => exact .inr ⟨_, _, _, hinput, houtput, rfl⟩

/-- A sketch that changes the tree has opened its input and put a file where its output is
created. -/
theorem Ends.tree_eq_or_put (h : Ends what world result between) :
    between.tree = world.tree ∨ ∃ input path place text, world.inputOf what.input = .ok input ∧
      what.output = some path ∧ world.tree.createPlace path = .ok place ∧
      between.tree = world.tree.put place (.file text) := by
  rcases h.eq_or_holding with rfl | ⟨input, output, text, hinput, houtput, rfl⟩
  · exact .inl rfl
  rcases Endpoint.ofPath?_eq_ok.mp houtput with ⟨_, rfl⟩ | ⟨path, place, hpath, hplace, rfl⟩
  · exact .inl (world.drained_tree input)
  · refine .inr ⟨input, path, place, text, hinput, hpath, hplace, ?_⟩
    rw [World.holding, World.drained_tree]

/-- What a run of a sketch comes to: its exit code and the world that it leaves, told by what
became of its input, its output and its sample. -/
structure Outcome (what : Sketch) (before : World) (code : UInt32) (after : World) : Prop where
  /-- If the input cannot be opened, nothing is created or changed. -/
  inputRefused : ∀ error, before.inputOf what.input = .error error →
    code = 1 ∧ after.tree = before.tree
  /-- If the output cannot be created, nothing is changed. -/
  outputRefused : ∀ input error, before.inputOf what.input = .ok input →
    before.outputOf what.output = .error error → code = 1 ∧ after.tree = before.tree
  /-- If the sample, read after the output was emptied, cannot be read or is rejected, then
  nothing is printed, and an output file is there and empty. -/
  sampleRefused : ∀ input output, before.inputOf what.input = .ok input →
    before.outputOf what.output = .ok output →
    (∀ sample text, (before.holding output []).contentOf? input = some sample →
      generate what.session.rootName sample ≠ .ok text) →
    code = 1 ∧ what.Fills before [] after
  /-- If the sample is accepted, the destination gets the head of the file and the declarations,
  and nothing is reported. -/
  written : ∀ input output sample text, before.inputOf what.input = .ok input →
    before.outputOf what.output = .ok output →
    (before.holding output []).contentOf? input = some sample →
    generate what.session.rootName sample = .ok text →
    code = 0 ∧ after.standardError = before.standardError ∧
      what.Fills before (Text.bytes (what.session.options.style.header ++ text)) after
  /-- Everything stays as it was but for the file that is created as the output. -/
  others : ∀ place,
    (∀ path, what.output = some path → before.tree.createPlace path ≠ .ok place) →
    after.tree.get? place = before.tree.get? place

theorem Ends.get?_eq (h : Ends what world result between) {place : List String}
    (hplace : ∀ path, what.output = some path → world.tree.createPlace path ≠ .ok place) :
    between.tree.get? place = world.tree.get? place := by
  rcases h.tree_eq_or_put with hsame | ⟨_, path, created, text, _, hpath, hcreated, hput⟩
  · rw [hsame]
  · have hne : place ≠ created := by
      rintro rfl
      exact hplace path hpath hcreated
    rw [hput, FileTree.get?_put_of_ne hne]

/-- Every end of a sketch keeps the promises of its outcome. -/
theorem Ends.outcome (h : Ends what world result between) :
    Outcome what world (Program.exitCode result)
      { between with standardError := between.standardError ++ Program.report result } where
  -- in each field the other ends contradict what is known of the input, the output or the sample
  inputRefused error herror := by
    cases h with
    | inputRefused => exact ⟨rfl, rfl⟩
    | _ => simp_all
  outputRefused input error hinput herror := by
    cases h with
    | outputRefused => exact ⟨rfl, rfl⟩
    | _ => simp_all
  sampleRefused input output hinput houtput hsample := by
    cases h with
    | unreadable hinput houtput => exact ⟨rfl, Sketch.fills_holding houtput _ _⟩
    | rejected hinput houtput => exact ⟨rfl, Sketch.fills_holding houtput _ _⟩
    | _ => simp_all
  written input output sample text hinput houtput hsample htext := by
    cases h with
    | written hinput' houtput' hsample' htext' =>
      obtain rfl := Except.ok.inj (hinput.symm.trans hinput')
      obtain rfl := Except.ok.inj (houtput.symm.trans houtput')
      obtain rfl := Option.some.inj (hsample.symm.trans hsample')
      obtain rfl := Except.ok.inj (htext.symm.trans htext')
      refine ⟨rfl, ?_, Sketch.fills_holding houtput _ _⟩
      cases input <;> cases output <;> exact List.append_nil _
    | _ => simp_all
  others place hplace := h.get?_eq hplace

/-- The command lines that ask for a sketch are those that spell allowed choices, each of them at
most once, and a run comes to the outcome of the sketch of these choices. -/
theorem Program.outcome_of_run {arguments : List String} {what : Sketch}
    (h : Request.ofArguments arguments = .ok (.sketch what)) (world : World) :
    (∃ choices, Spells choices arguments ∧ (choices.map Choice.parameter?).Nodup ∧
      (∀ choice ∈ choices, choice.Allowed) ∧ what = .ofChoices choices) ∧
    Outcome what world (Program.run World.host arguments world).1
      (Program.run World.host arguments world).2 := by
  obtain ⟨result, between, hends, hrun⟩ := Program.run_ends h world
  rw [hrun]
  exact ⟨Request.ofArguments_eq_sketch.mp h, hends.outcome⟩

/-- A command line that names a file for input, another one for output, and the package. -/
def sampleArguments : List String := ["-i", "in.json", "--output=out/main.go", "-pmodel"]

/-- The sketch that it asks for. -/
def sampleSketch : Sketch := ⟨some "in.json", some "out/main.go", ⟨"Root", ⟨"model", false⟩⟩⟩

/-- A file with an empty object, and a directory for the output. -/
def sampleWorld : World := .ofFiles [("in.json", Text.bytes "\x7b\x7d")] ["out"] []

theorem ofArguments_sampleArguments :
    Request.ofArguments sampleArguments = .ok (.sketch sampleSketch) := rfl

theorem openPlace_sampleWorld :
    sampleWorld.tree.openPlace "in.json" = .ok ["tmp", "start", "in.json"] := rfl

theorem createPlace_sampleWorld :
    sampleWorld.tree.createPlace "out/main.go" = .ok ["tmp", "start", "out", "main.go"] := rfl

theorem get?_sampleWorld :
    sampleWorld.tree.get? ["tmp", "start", "in.json"] = some (.file (Text.bytes "\x7b\x7d")) := rfl

theorem Program.outcome_of_run_sampleArguments :
    Request.ofArguments sampleArguments = .ok (.sketch sampleSketch) ∧
      let after := Program.run World.host sampleArguments sampleWorld
      after.1 = 0 ∧ after.2.standardError = [] ∧
        sampleSketch.Fills sampleWorld
          (Text.bytes "package model\n\ntype Root struct \x7b\n\x7d\n") after.2 := by
  obtain ⟨_, houtcome⟩ := Program.outcome_of_run ofArguments_sampleArguments sampleWorld
  have hinput : sampleWorld.inputOf sampleSketch.input = .ok (.node ["tmp", "start", "in.json"]) :=
    Endpoint.ofPath?_eq_ok.mpr (.inr ⟨_, _, rfl, openPlace_sampleWorld, rfl⟩)
  have houtput : sampleWorld.outputOf sampleSketch.output =
      .ok (.node ["tmp", "start", "out", "main.go"]) :=
    Endpoint.ofPath?_eq_ok.mpr (.inr ⟨_, _, rfl, createPlace_sampleWorld, rfl⟩)
  have hsample : (sampleWorld.holding (.node ["tmp", "start", "out", "main.go"]) []).contentOf?
      (.node ["tmp", "start", "in.json"]) = some (Text.bytes "\x7b\x7d") := by
    simp only [World.holding, World.contentOf?]
    rw [FileTree.get?_put_of_ne (by decide), get?_sampleWorld]
  have hgenerate : generate sampleSketch.session.rootName (Text.bytes "\x7b\x7d") =
      .ok "type Root struct \x7b\n\x7d\n" := by
    with_unfolding_all rfl
  have hheader : sampleSketch.session.options.style.header = "package model\n\n" := rfl
  have hwritten := houtcome.written _ _ _ _ hinput houtput hsample hgenerate
  rw [hheader] at hwritten
  exact ⟨ofArguments_sampleArguments, hwritten⟩

/-! ## What becomes of the input file -/

/-- The input and the output of a sketch are one file. -/
def Sketch.SharesFile (what : Sketch) (world : World) : Prop :=
  ∃ path target place, what.input = some path ∧ what.output = some target ∧
    world.tree.openPlace path = .ok place ∧ world.tree.createPlace target = .ok place

/-- The file of the input is as it was, unless it is the output too. -/
theorem Ends.content?_eq (h : Ends what world result between) {path : String}
    (hinput : what.input = some path) (hshares : ¬ what.SharesFile world) :
    between.tree.content? path = world.tree.content? path := by
  rcases h.tree_eq_or_put with hsame | ⟨input, target, place, text, hopen, htarget, hplace, hput⟩
  · rw [hsame]
  · rcases Endpoint.ofPath?_eq_ok.mp hopen with ⟨hnone, _⟩ | ⟨path', opened, hpath, hopened, _⟩
    · rw [hnone] at hinput
      cases hinput
    · obtain rfl := Option.some.inj (hinput.symm.trans hpath)
      have hne : opened ≠ place := by
        rintro rfl
        exact hshares ⟨path, target, opened, hinput, htarget, hopened, hplace⟩
      rw [hput, FileTree.content?_put (FileTree.of_createPlace hplace).1 hopened hne]

/-- An input file that is the output too is left empty, since it is read after it was emptied. -/
theorem Ends.content?_eq_nil (h : Ends what world result between) {path : String}
    (hinput : what.input = some path) (hshares : what.SharesFile world) :
    Program.exitCode result = 1 ∧ between.tree.content? path = some [] := by
  obtain ⟨path', target, place, hpath, houtput, hopen, hcreate⟩ := hshares
  obtain rfl := Option.some.inj (hinput.symm.trans hpath)
  have hinputOf : world.inputOf what.input = .ok (.node place) :=
    Endpoint.ofPath?_eq_ok.mpr (.inr ⟨path, place, hinput, hopen, rfl⟩)
  have houtputOf : world.outputOf what.output = .ok (.node place) :=
    Endpoint.ofPath?_eq_ok.mpr (.inr ⟨target, place, houtput, hcreate, rfl⟩)
  have hnode := (FileTree.of_createPlace hcreate).1
  have hsample : (world.holding (.node place) []).contentOf? (.node place) = some [] := by
    simp only [World.holding, World.contentOf?,
      FileTree.get?_put_self (FileTree.ne_nil_of_get?_ne hnode)]
  -- so the sample is empty, and no other end fits
  obtain ⟨failure, hfailure⟩ := exists_generate_nil what.session.rootName
  cases h with
  | rejected hinput' houtput' =>
    obtain rfl := Except.ok.inj (hinputOf.symm.trans hinput')
    obtain rfl := Except.ok.inj (houtputOf.symm.trans houtput')
    exact ⟨rfl, FileTree.content?_put_of_openPlace hnode hopen⟩
  | _ => simp_all

/-- The file of the input has the same content after a run as before, unless it is the output too:
then the run fails and leaves the file empty. -/
theorem Program.content?_input_of_run {arguments : List String} {what : Sketch} {path : String}
    (h : Request.ofArguments arguments = .ok (.sketch what)) (hinput : what.input = some path)
    (world : World) :
    let after := Program.run World.host arguments world
    (¬ what.SharesFile world → after.2.tree.content? path = world.tree.content? path) ∧
      (what.SharesFile world → after.1 = 1 ∧ after.2.tree.content? path = some []) := by
  obtain ⟨result, between, hends, hrun⟩ := Program.run_ends h world
  rw [hrun]
  exact ⟨hends.content?_eq hinput, hends.content?_eq_nil hinput⟩

theorem Program.content?_input_of_run_sampleArguments :
    Request.ofArguments sampleArguments = .ok (.sketch sampleSketch) ∧
      sampleSketch.input = some "in.json" ∧ ¬ sampleSketch.SharesFile sampleWorld ∧
      (Program.run World.host sampleArguments sampleWorld).2.tree.content? "in.json" =
        some (Text.bytes "\x7b\x7d") := by
  have hshares : ¬ sampleSketch.SharesFile sampleWorld := by
    rintro ⟨path, target, place, hpath, htarget, hopen, hcreate⟩
    cases hpath
    cases htarget
    rw [openPlace_sampleWorld] at hopen
    rw [createPlace_sampleWorld] at hcreate
    obtain rfl := Except.ok.inj hopen
    exact absurd (Except.ok.inj hcreate) (by decide)
  refine ⟨ofArguments_sampleArguments, rfl, hshares, ?_⟩
  exact (Program.content?_input_of_run ofArguments_sampleArguments rfl sampleWorld).1 hshares

/-- The file of the input does not always have the same content after a run as before: a command
line can name it as the output too. -/
theorem Program.content?_input_changes :
    ¬ ∀ (arguments : List String) (what : Sketch) (path : String) (world : World),
      Request.ofArguments arguments = .ok (.sketch what) → what.input = some path →
        (Program.run World.host arguments world).2.tree.content? path =
          world.tree.content? path := by
  intro hkept
  let arguments := ["-i", "x.json", "-o", "x.json"]
  let what : Sketch := ⟨some "x.json", some "x.json", ⟨"Root", ⟨"main", false⟩⟩⟩
  let world : World := .ofFiles [("x.json", Text.bytes "\x7b\x7d")] [] []
  have hrequest : Request.ofArguments arguments = .ok (.sketch what) := rfl
  have hshares : what.SharesFile world :=
    ⟨"x.json", "x.json", ["tmp", "start", "x.json"], rfl, rfl, rfl, rfl⟩
  have hbefore : world.tree.content? "x.json" = some (Text.bytes "\x7b\x7d") := rfl
  have hafter := hkept arguments what "x.json" world hrequest rfl
  obtain ⟨result, between, hends, hrun⟩ := Program.run_ends hrequest world
  rw [hrun, hbefore] at hafter
  have hempty := (hends.content?_eq_nil rfl hshares).2
  exact absurd (hempty.symm.trans hafter) (by decide)

end StructSketch.CommandLine
