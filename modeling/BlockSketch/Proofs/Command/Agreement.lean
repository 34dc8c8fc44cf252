import BlockSketch.Command.Run
import BlockSketch.Proofs.Files.Tree
import BlockSketch.Proofs.Session.Inspection
import BlockSketch.Proofs.Session.Variables
import BlockSketch.Proofs.Sketch.Lines

/-!
# The ways to a sketch agree

There are three ways from a saved workspace to its sketch: from its text, from the file that has the
text, and by the command, which may be told to count positions from zero and to indent by another
number of blanks. `Command.front_ends_agree` says on any file system that they have the same
outcome.

If there is no sketch, the command has printed nothing and has touched no file, since it makes the
whole sketch before it prints or writes anything. That it fails just where the others do needs a
reason, because it makes another sketch than they do: the options do not decide whether there is one
(`Workspace.sketch_error_congr`), as what is wrong with a workspace can be told without them.

If there is a sketch, the command makes one that differs by its options alone. It is read again at
the output path, also where that is the input path, for by then the input has been read.
-/

namespace BlockSketch

/-! ### Whether there is a sketch -/

namespace Session

/-- The names of the declared variables do not depend on what else there is in a session. -/
theorem variableNames_congr {s s' : Session} (h : s.variableNames = s'.variableNames)
    (declared : List Declared) : (declareVariables declared s).2.variableNames =
      (declareVariables declared s').2.variableNames := by
  induction declared generalizing s s' with
  | nil => exact h
  | cons v declared ih =>
    simp only [declareVariables]
    exact ih (by simp only [h])

end Session

namespace Workspace

/-- A workspace has no sketch exactly if something is wrong with one of its blocks. -/
theorem sketch_error_iff (w : Workspace) (options : Options) (e : GenerationError) :
    w.sketch options = .error e ↔
      forM (w.blocks.flatMap Block.stack)
        (Block.inspect (Session.start w options).variableNames) = .error e := by
  obtain ⟨-, hagree⟩ := Generate.foretold_mapM (Block.foretold_asStatement _)
    (w.blocks.flatMap Block.stack) (Session.start w options) rfl
  have hcode : w.code =
      (w.blocks.flatMap Block.stack).mapM fun block => Code.asStatement <$> block.code :=
    w.code_eq_mapM
  rw [← hcode] at hagree
  rw [hagree.error_iff, sketch]
  rcases (Session.start w options).perform w.code with ⟨e' | statements, s⟩
  · exact ⟨fun h => congrArg _ (Except.error.inj h), fun h => congrArg _ (Except.error.inj h)⟩
  · constructor <;> intro h <;> cases h

/-- Whatever the options are, the error is the same. -/
theorem sketch_error_congr (w : Workspace) (options options' : Options) (e : GenerationError) :
    w.sketch options = .error e ↔ w.sketch options' = .error e := by
  have hnew : (Session.new options).variableNames = (Session.new options').variableNames := rfl
  have hnames := Session.variableNames_congr hnew w.declared
  rw [← Session.variableNames_start, ← Session.variableNames_start] at hnames
  rw [sketch_error_iff, sketch_error_iff, hnames]

/-- Whatever the options are, there is a sketch or there is none. -/
theorem exists_sketch_congr {w : Workspace} {options : Options} {text : String}
    (h : w.sketch options = .ok text) (options' : Options) :
    ∃ text', w.sketch options' = .ok text' := by
  cases hother : w.sketch options' with
  | ok text' => exact ⟨text', rfl⟩
  | error e =>
    rw [(w.sketch_error_congr options' options e).mp hother] at h
    cases h

/-- From the text to the sketch. -/
theorem sketchOfText_eq (source : String) :
    sketchOfText source =
      match parse source with
      | .error fault => .error ⟨["Invalid workspace JSON."], .reading fault⟩
      | .ok w =>
        match w.sketch (.ofWorkspace w) with
        | .error e => .error ⟨[], .generation e⟩
        | .ok text => .ok text := by
  rw [sketchOfText, ofText]
  cases parse source with
  | error fault => rfl
  | ok w =>
    change w.sketchWith (.ofWorkspace w) = _
    simp only [sketchWith]
    cases w.sketch (.ofWorkspace w) <;> rfl

end Workspace

/-! ### Work on a world -/

namespace World

variable {α β : Type} (world : World)

/-- Does some work on a world. -/
def perform (work : ExceptT Failure (StateM World) α) : Except Failure α × World :=
  StateT.run (ExceptT.run work) world

/-- What comes second is done on the world that the first has left, and not at all if the first
failed. -/
theorem perform_bind (work : ExceptT Failure (StateM World) α)
    (next : α → ExceptT Failure (StateM World) β) :
    world.perform (work >>= next) =
      match world.perform work with
      | (.ok a, world') => world'.perform (next a)
      | (.error failure, world') => (.error failure, world') := by
  simp only [perform, ExceptT.run_bind, StateT.run_bind]
  generalize (ExceptT.run work).run world = outcome
  obtain ⟨result, world'⟩ := outcome
  cases result <;> rfl

theorem perform_note (text : String) :
    world.perform (Host.note text) = (.ok (), { world with noted := world.noted ++ text }) :=
  rfl

theorem perform_find (path : String) :
    world.perform (Host.find path) = (.ok (world.files.find path), world) :=
  rfl

theorem perform_read (path : String) :
    world.perform (Host.read path) = (.ok (world.files.read path), world) :=
  rfl

theorem perform_makeParent (path : String) {result : Except FileFault Unit} {files : FileTree}
    (h : world.files.makeParent path = (result, files)) :
    world.perform (Host.makeParent path) = (.ok result, { world with files }) := by
  simp only [perform, Host.makeParent, ExceptT.run_lift, StateT.run_map, StateT.run_modifyGet, h]
  rfl

theorem perform_write (path content : String) :
    world.perform (Host.write path content) =
      match world.files.write path content with
      | .ok files => (.ok (.ok ()), { world with files })
      | .error fault => (.ok (.error fault), world) := by
  simp only [perform, Host.write, ExceptT.run_lift, StateT.run_map, StateT.run_modifyGet]
  cases world.files.write path content <;> rfl

end World

namespace Command

variable {world : World}

/-! ### The stages -/

theorem perform_findInput (path : String) :
    world.perform (findInput path) =
      match world.files.find path with
      | some full => (.ok full, world)
      | none => (.error ⟨[], .noInput path⟩, world) := by
  rw [findInput, World.perform_bind, World.perform_find]
  cases world.files.find path <;> rfl

theorem perform_readWorkspace (path full : String) :
    world.perform (readWorkspace path full) =
      match world.files.read path with
      | .error fault => (.error ⟨["Failed to read '" ++ full ++ "'."], .file fault⟩, world)
      | .ok source =>
        match Workspace.parse source with
        | .error fault =>
          (.error ⟨["While reading '" ++ full ++ "'.", "Invalid workspace JSON."], .reading fault⟩,
            world)
        | .ok w => (.ok w, world) := by
  rw [readWorkspace, World.perform_bind, World.perform_read]
  simp only [Workspace.ofText]
  cases world.files.read path with
  | error fault => rfl
  | ok source =>
    simp only
    cases Workspace.parse source <;> rfl

theorem perform_makeSketch (full : String) (w : Workspace) (options : Options) :
    world.perform (makeSketch full w options) =
      match w.sketch options with
      | .ok text => (.ok text, world)
      | .error e =>
        (.error ⟨["Code generation failed for '" ++ full ++ "'."], .generation e⟩, world) := by
  rw [makeSketch, Workspace.sketchWith]
  cases w.sketch options <;> rfl

/-- What comes of writing a sketch. -/
theorem perform_writeSketch (output text : String) :
    world.perform (writeSketch output text) =
      match world.files.makeParent output with
      | (.error fault, files) => (.error ⟨[], .file fault⟩, { world with files })
      | (.ok (), files) =>
        match files.write output text with
        | .error fault =>
          (.error ⟨["Failed to write '" ++ output ++ "'."], .file fault⟩, { world with files })
        | .ok files => (.ok (), { world with files }) := by
  rw [writeSketch, World.perform_bind]
  rcases hmade : world.files.makeParent output with ⟨fault | ⟨⟨⟩⟩, files⟩
  · rw [World.perform_makeParent world output hmade]
    rfl
  · rw [World.perform_makeParent world output hmade]
    simp only [World.perform_bind, World.perform_write]
    cases files.write output text <;> rfl

/-- What comes of a file with the text `source` and the full path `full`, if the options are chosen
when the workspace has been read. -/
def outcome (full source : String) (choose : Workspace → Options) : Except Failure String :=
  match Workspace.parse source with
  | .error fault =>
    .error ⟨["While reading '" ++ full ++ "'.", "Invalid workspace JSON."], .reading fault⟩
  | .ok w =>
    match w.sketch (choose w) with
    | .error e => .error ⟨["Code generation failed for '" ++ full ++ "'."], .generation e⟩
    | .ok text => .ok text

/-- What the command does with a sketch. -/
def deliver (output : Option String) (text : String) : ExceptT Failure (StateM World) Unit :=
  match output with
  | none => Host.print text
  | some output => do
    Host.note (Progress.line 4 4 "Writing sketch")
    writeSketch output text

variable {path full source : String}

theorem outcome_of_error {fault : Fault} (h : Workspace.parse source = .error fault)
    (choose : Workspace → Options) :
    outcome full source choose =
      .error ⟨["While reading '" ++ full ++ "'.", "Invalid workspace JSON."], .reading fault⟩ := by
  rw [outcome, h]

theorem outcome_of_ok {w : Workspace} (h : Workspace.parse source = .ok w)
    (choose : Workspace → Options) :
    outcome full source choose =
      match w.sketch (choose w) with
      | .error e => .error ⟨["Code generation failed for '" ++ full ++ "'."], .generation e⟩
      | .ok text => .ok text := by
  rw [outcome, h]

theorem perform_sketchOfFile (hread : world.files.read path = .ok source)
    (hfind : world.files.find path = some full) :
    world.perform (sketchOfFile path) = (outcome full source .ofWorkspace, world) := by
  rw [sketchOfFile]
  simp only [World.perform_bind, perform_findInput, perform_readWorkspace, hfind, hread]
  cases hparse : Workspace.parse source with
  | error fault => rw [outcome_of_error hparse]
  | ok w =>
    rw [outcome_of_ok hparse]
    simp only [perform_makeSketch]
    cases w.sketch (.ofWorkspace w) <;> rfl

/-- Up to the sketch the command does no more than tell how far it is. -/
theorem perform_run {arguments : Arguments} (hread : world.files.read arguments.input = .ok source)
    (hfind : world.files.find arguments.input = some full) :
    ∃ noted, world.perform (run arguments) =
      match outcome full source (options arguments) with
      | .error failure => (.error failure, { world with noted })
      | .ok text => ({ world with noted } : World).perform (deliver arguments.output text) := by
  rw [run]
  simp only [World.perform_bind, World.perform_note, perform_findInput, perform_readWorkspace,
    hfind, hread]
  cases hparse : Workspace.parse source with
  | error fault =>
    rw [outcome_of_error hparse]
    exact ⟨_, rfl⟩
  | ok w =>
    rw [outcome_of_ok hparse]
    simp only [perform_makeSketch]
    cases w.sketch (options arguments w) with
    | error e => exact ⟨_, rfl⟩
    | ok text =>
      simp only
      cases arguments.output with
      | none => exact ⟨_, rfl⟩
      | some output => exact ⟨_, rfl⟩

/-! ### What the command leaves behind -/

/-- The sketch is where it was asked for. Without an output path it is printed, and no file is
touched. Otherwise nothing is printed. If the directory of the output path cannot be created, or
then the file cannot be written, the command fails with the fault that was met; and else the sketch
is what is read at the output path from then on. -/
def Delivered (world : World) (text : String) (result : Except Failure Unit) (world' : World) :
    Option String → Prop
  | none => result = .ok () ∧ world'.printed = world.printed ++ text ∧ world'.files = world.files
  | some output => world'.printed = world.printed ∧
    match world.files.makeParent output with
    | (.error fault, files) => result = .error ⟨[], .file fault⟩ ∧ world'.files = files
    | (.ok (), files) =>
      match files.write output text with
      | .error fault =>
        result = .error ⟨["Failed to write '" ++ output ++ "'."], .file fault⟩ ∧
          world'.files = files
      | .ok files => result = .ok () ∧ world'.files = files ∧ files.read output = .ok text

theorem delivered_deliver (world : World) (noted text : String) (output : Option String) :
    let after := ({ world with noted } : World).perform (deliver output text)
    Delivered world text after.1 after.2 output := by
  cases output with
  | none => exact ⟨rfl, rfl, rfl⟩
  | some output =>
    simp only [Delivered, deliver, World.perform_bind, World.perform_note, perform_writeSketch]
    rcases world.files.makeParent output with ⟨fault | ⟨⟨⟩⟩, files⟩
    · exact ⟨rfl, rfl, rfl⟩
    · simp only
      cases hwrite : files.write output text with
      | error fault => exact ⟨rfl, rfl, rfl⟩
      | ok files => exact ⟨rfl, rfl, rfl, FileTree.read_of_write hwrite⟩

/-- Without a word on the command line the options are those of the workspace. -/
theorem options_eq {arguments : Arguments} (hzero : arguments.zeroBased = false)
    (hindent : arguments.indent = 2) (w : Workspace) : options arguments w = .ofWorkspace w := by
  rw [options, hzero, hindent]
  rfl

/-- **The ways to a sketch agree.** Let the input path be that of a file with some text. Either the
text has no sketch. Then the file has none and the command makes none, both fail with one failure,
which has the cause that the text has no sketch, nothing is printed, and all files are what they
were.

Or it has one, which is the sketch of the file too. Then the command makes the sketch of the
workspace in the text with the options of the workspace, but with positions counted from zero if it
is told so, and with lines indented by as many blanks as it is told; for two blanks and no word on
positions that is the sketch of the text. It prints this sketch, or it leaves it at the output path,
which may be the input path. -/
theorem front_ends_agree {world : World} {arguments : Arguments} {source : String}
    (hread : world.files.read arguments.input = .ok source) :
    (∀ failure, Workspace.sketchOfText source = .error failure →
      ∃ told noted, told.cause = failure.cause ∧
        world.perform (sketchOfFile arguments.input) = (.error told, world) ∧
        world.perform (run arguments) = (.error told, { world with noted })) ∧
    ∀ sketch, Workspace.sketchOfText source = .ok sketch →
      world.perform (sketchOfFile arguments.input) = (.ok sketch, world) ∧
      ∃ w text, Workspace.parse source = .ok w ∧
        w.sketch {
          oneBased := !arguments.zeroBased && (Options.ofWorkspace w).oneBased
          indent := String.ofList (List.replicate arguments.indent ' ') } = .ok text ∧
        (arguments.zeroBased = false → arguments.indent = 2 → text = sketch) ∧
        ∃ result world', world.perform (run arguments) = (result, world') ∧
          Delivered world text result world' arguments.output := by
  obtain ⟨full, hfind⟩ := FileTree.exists_find_of_read hread
  obtain ⟨noted, hrun⟩ := perform_run hread hfind
  have hfile := perform_sketchOfFile hread hfind
  rw [Workspace.sketchOfText_eq]
  cases hparse : Workspace.parse source with
  | error fault =>
    rw [outcome_of_error hparse] at hrun hfile
    refine ⟨?_, nofun⟩
    rintro _ ⟨⟩
    refine ⟨_, noted, ?_, hfile, hrun⟩
    rfl
  | ok w =>
    rw [outcome_of_ok hparse] at hrun hfile
    simp only
    cases hsketch : w.sketch (.ofWorkspace w) with
    | error e =>
      rw [hsketch] at hfile
      rw [(w.sketch_error_congr _ _ e).mp hsketch] at hrun
      refine ⟨?_, nofun⟩
      rintro _ ⟨⟩
      refine ⟨_, noted, ?_, hfile, hrun⟩
      rfl
    | ok sketch =>
      rw [hsketch] at hfile
      obtain ⟨text, htext⟩ := Workspace.exists_sketch_congr hsketch (options arguments w)
      rw [htext] at hrun
      refine ⟨nofun, ?_⟩
      rintro _ ⟨⟩
      refine ⟨hfile, w, text, rfl, htext, ?_, _, _, hrun, delivered_deliver world noted text _⟩
      intro hzero hindent
      rw [options_eq hzero hindent, hsketch] at htext
      exact (Except.ok.inj htext).symm

/-- A search in a text, saved by itself. -/
def savedSearch : String :=
  "\x7b\"blocks\":\x7b\"blocks\":[" ++
    "\x7b\"type\":\"text_indexOf\",\"fields\":\x7b\"END\":\"FIRST\"\x7d\x7d]\x7d\x7d"

/-- A world with one file, which has the saved search. -/
def searchWorld : World :=
  { files := ⟨"/home", [(⟨some 0, ["in.json"]⟩, .file savedSearch.toUTF8)]⟩ }

/-- Asks for the sketch of that file in the place of the file. -/
def replacing : Arguments :=
  { input := "in.json", output := some "in.json", zeroBased := true, indent := 4 }

theorem read_searchWorld : searchWorld.files.read replacing.input = .ok savedSearch := by
  have hlocate : searchWorld.files.locate replacing.input =
      .ok (⟨some 0, ["in.json"]⟩, .file savedSearch.toUTF8) := rfl
  rw [FileTree.read, hlocate]
  simp only [bind, Except.bind, FileTree.fromUTF8?_toUTF8]
  rfl

/-- With its own path for the output the saved search is replaced by its sketch, which counts from
zero and is indented as was asked for. -/
theorem input_is_replaced :
    searchWorld.files.read replacing.input = .ok savedSearch ∧
    ∃ world', searchWorld.perform (run replacing) = (.ok (), world') ∧ world'.printed = "" ∧
      world'.files.read replacing.input = .ok ("void setup() \x7b\n\x7d\n\n" ++
        "void loop() \x7b\n    String(\"\").indexOf(\"\");\n\x7d\n") := by
  have hsketch : Workspace.sketchOfText savedSearch = .ok ("void setup() \x7b\n\x7d\n\n" ++
      "void loop() \x7b\n  String(\"\").indexOf(\"\") + 1;\n\x7d\n") := by
    decide +kernel
  have htold : ((Workspace.parse savedSearch).toOption.bind fun w =>
      (w.sketch { oneBased := false, indent := "    " }).toOption) =
        some ("void setup() \x7b\n\x7d\n\n" ++
          "void loop() \x7b\n    String(\"\").indexOf(\"\");\n\x7d\n") := by
    decide +kernel
  have hmade : searchWorld.files.makeParent "in.json" = (.ok (), searchWorld.files) := by
    have hparent : Path.parentText "in.json" = "" := by decide
    rw [FileTree.makeParent, hparent]
    rfl
  have hwrite (text : String) : searchWorld.files.write "in.json" text =
      .ok (searchWorld.files.put ⟨some 0, ["in.json"]⟩ (.file text.toUTF8)) := rfl
  obtain ⟨-, w, text, hparse, htext, -, result, world', hrun, hdelivered⟩ :=
    (front_ends_agree read_searchWorld).2 _ hsketch
  have htext : w.sketch { oneBased := false, indent := "    " } = .ok text := htext
  rw [hparse] at htold
  simp only [Except.toOption, Option.bind_some, htext, Option.some.injEq] at htold
  rw [replacing, Delivered, hmade] at hdelivered
  simp only [hwrite] at hdelivered
  obtain ⟨hprinted, rfl, hfiles, hfound⟩ := hdelivered
  rw [← hfiles, htold] at hfound
  exact ⟨read_searchWorld, world', hrun, hprinted, hfound⟩

end Command

end BlockSketch
