import NpcDialog.Proofs.Machine.Related
import NpcDialog.Proofs.Machine.Functions

/-!
# The machine of a new context

What a new context's machine is like has nothing to do with the files that there are.
The libraries are made without a look at them, and what the host's own texts do when
they are run, the loaders and the function around a suspending callback, calls no
built-in function.  So the machine is the same for all files, and what is to be known
of it can be computed for no files at all.

* `Machine.isPlain` — a step that calls no built-in function.
* `Machine.resultsOf_withFiles` — a text all steps of which are such.
* `Machine.equipped_withFiles` — the machine of a new context.
-/

namespace NpcDialog

open Lua
open Bytes (ofText)
open Preparation

namespace Lua

/-! ## The libraries -/

namespace Heap

/-- The heap with other files. -/
def withFiles (h : Heap) (files : FileTree) : Heap := { h with files }

variable (h : Heap) (files : FileTree)

/-- A new table has the same number, whatever files there are. -/
theorem newTable_withFiles (t : Table) :
    (h.withFiles files).newTable t = ((h.newTable t).1, (h.newTable t).2.withFiles files) := rfl

/-- A field is written alike. -/
theorem rawSetNormal_withFiles (id : Nat) (key value : Value) :
    (h.withFiles files).rawSetNormal id key value = (h.rawSetNormal id key value).withFiles files := by
  unfold rawSetNormal
  dsimp only
  split <;> split <;> first | rfl | contradiction

theorem rawSetStr_withFiles (id : Nat) (name : Bytes) (value : Value) :
    (h.withFiles files).rawSetStr id name value = (h.rawSetStr id name value).withFiles files :=
  rawSetNormal_withFiles h files id _ value

/-- The induction is on the fields. -/
theorem foldl_withFiles (id : Nat) (fields : List (String × Value)) :
    fields.foldl (fun h (name, v) => h.rawSetStr id (ofText name) v) (h.withFiles files) =
      (fields.foldl (fun h (name, v) => h.rawSetStr id (ofText name) v) h).withFiles files := by
  induction fields generalizing h with
  | nil => rfl
  | cons x rest ih =>
    rw [List.foldl_cons, List.foldl_cons, ← ih]
    exact congrArg (rest.foldl _) (rawSetStr_withFiles h files id _ _)

theorem newLibrary_withFiles (fields : List (String × Value)) :
    (h.withFiles files).newLibrary fields =
      ((h.newLibrary fields).1, (h.newLibrary fields).2.withFiles files) := by
  unfold newLibrary
  rw [newTable_withFiles]
  exact Prod.ext rfl (foldl_withFiles _ files _ fields)

theorem globals_withFiles : (h.withFiles files).globals = h.globals := rfl

theorem loaded_withFiles : (h.withFiles files).loaded = h.loaded := rfl

/-- A library is added alike. -/
theorem addLibrary_withFiles (name : String) (fields : List (String × Value)) :
    (h.withFiles files).addLibrary name fields =
      ((h.addLibrary name fields).1, (h.addLibrary name fields).2.withFiles files) := by
  simp only [addLibrary, newLibrary_withFiles, globals_withFiles, rawSetStr_withFiles,
    loaded_withFiles]

theorem addModules_withFiles : (h.withFiles files).addModules = h.addModules.withFiles files := by
  simp only [addModules, newLibrary_withFiles, newTable_withFiles, rawSetNormal_withFiles,
    addLibrary_withFiles, rawSetStr_withFiles, globals_withFiles, loaded_withFiles]

theorem newFile_withFiles (f : OpenFile) :
    (h.withFiles files).newFile f = ((h.newFile f).1, (h.newFile f).2.withFiles files) := rfl

/-- The standard streams are none of the files. -/
theorem addStreams_withFiles : (h.withFiles files).addStreams = h.addStreams.withFiles files := by
  simp only [addStreams, newFile_withFiles, newLibrary_withFiles, addLibrary_withFiles]
  rfl

theorem withRoots_withFiles (globals loaded : Nat) : { h.withFiles files with globals, loaded } =
    { h with globals, loaded }.withFiles files := rfl

theorem withHandleMeta_withFiles (handleMetas : Array Nat) :
    { h.withFiles files with handleMetas } = { h with handleMetas }.withFiles files := rfl

theorem withStringMeta_withFiles (stringMeta : Option Nat) :
    { h.withFiles files with stringMeta } = { h with stringMeta }.withFiles files := rfl

theorem handleMetas_withFiles : (h.withFiles files).handleMetas = h.handleMetas := rfl

theorem charge_withFiles (n : Nat) : (h.withFiles files).charge n = (h.charge n).withFiles files := rfl

theorem addHandleMetas_withFiles :
    (h.withFiles files).addHandleMetas = h.addHandleMetas.withFiles files := by
  unfold addHandleMetas
  induction Handle.all generalizing h with
  | nil => rfl
  | cons k rest ih =>
    rw [List.foldl_cons, List.foldl_cons, ← ih]
    simp only [newLibrary_withFiles, withHandleMeta_withFiles, handleMetas_withFiles]

/-- A new heap is always the same but for the files. -/
theorem fresh_eq : Heap.fresh files = (Heap.fresh .empty).withFiles files := by
  have empty : Heap.empty files = (Heap.empty .empty).withFiles files := rfl
  unfold Heap.fresh
  rw [empty]
  generalize Heap.empty .empty = h
  simp only [newTable_withFiles, withRoots_withFiles, foldl_withFiles,
    rawSetStr_withFiles, addModules_withFiles, addLibrary_withFiles, addStreams_withFiles,
    newLibrary_withFiles, withStringMeta_withFiles, addHandleMetas_withFiles, charge_withFiles]

end Heap

/-! ## Steps that call no built-in function -/

/-- Is this one of the few instructions that the host's own texts are made of? -/
def Instr.isPlain : Instr → Bool
  | .move _ _ | .getCapturedField _ _ _ | .getField _ _ _ | .closure _ _ | .return _ _ _
  | .vararg _ _ | .varargPrep _ => true
  | _ => false

theorem Heap.lookup_withFiles (h : Heap) (files : FileTree) (v key : Value) :
    (h.withFiles files).lookup v key = h.lookup v key := by
  unfold lookup
  generalize true = first
  induction chainBound generalizing v first with
  | zero => rfl
  | succ n ih =>
    have through (v : Value) : (h.withFiles files).metamethod v "__index" = h.metamethod v "__index" := by
      cases v <;> rfl
    unfold lookupFrom
    cases v with
    | table id => 
      simp only [ih]
      rfl
    | _ => simp only [through, ih]

namespace Machine

open Context (withFiles)

variable (m : Machine) (files : FileTree)

theorem clearFrom_withFiles (start n : Nat) :
    (withFiles m files).clearFrom start n = withFiles (m.clearFrom start n) files := by
  induction n generalizing m start with
  | zero => rfl
  | succ n ih => exact ih (m.setSlot start .nil) _

theorem copySlots_withFiles (source target n : Nat) :
    (withFiles m files).copySlots source target n = withFiles (m.copySlots source target n) files := by
  induction n generalizing m source target with
  | zero => rfl
  | succ n ih => exact ih (m.setSlot target (m.slot source)) _ _

theorem withSlots_withFiles (n : Nat) :
    (withFiles m files).withSlots n = withFiles (m.withSlots n) files := by
  unfold withSlots
  split <;> split <;> first | rfl | contradiction

theorem withFrames_withFiles (frames : List Frame) :
    (withFiles m files).withFrames frames = withFiles (m.withFrames frames) files := by
  unfold withFrames
  split <;> rfl

theorem fetch_withFiles (a : Activation) (target : Nat) (object key : Value) (o : Origin) :
    (withFiles m files).fetch a target object key o =
      withFiles (m.fetch a target object key o) files := by
  have same : (withFiles m files).heap.lookup object key = m.heap.lookup object key :=
    Heap.lookup_withFiles m.heap.toHeap files object key
  unfold fetch
  rw [same]
  split <;> rfl

theorem capture_withFiles (slot : Nat) : (withFiles m files).capture slot =
    ((m.capture slot).1, withFiles (m.capture slot).2 files) := by
  simp only [capture, withFiles]
  cases cellOf slot m.cells <;> rfl

theorem captureAll_withFiles (a : Activation) (sources : List CaptureSource) (cells : Array Nat) :
    captureAll a sources cells (withFiles m files) =
      ((captureAll a sources cells m).1, withFiles (captureAll a sources cells m).2 files) := by
  induction sources generalizing m cells with
  | nil => rfl
  | cons s rest ih =>
    unfold captureAll
    rw [capture_withFiles]
    split
    · exact ih _ _
    · exact ih _ _

theorem makeClosure_withFiles (a : Activation) (target k : Nat) :
    (withFiles m files).makeClosure a target k = withFiles (m.makeClosure a target k) files := by
  unfold makeClosure
  split
  · rfl
  · rw [captureAll_withFiles]
    rfl

theorem closeCells_withFiles (floor : Nat) :
    (withFiles m files).closeCells floor = withFiles (m.closeCells floor) files := by
  have same : (withFiles m files).cells = m.cells := rfl
  cases found : m.cells with
  | nil => simp only [closeCells, same, found]
  | cons p rest =>
    simp only [closeCells, same, found]
    split <;> rfl

theorem leave_withFiles (a : Activation) (start n : Nat) :
    (withFiles m files).leave a start n = withFiles (m.leave a start n) files := by
  have same : (withFiles m files).frames = m.frames := rfl
  cases found : m.frames with
  | nil => simp only [leave, same, found]
  | cons frame rest =>
    simp only [leave, same, found, copySlots_withFiles, clearFrom_withFiles, withFrames_withFiles]
    split <;> rfl

theorem loadExtra_withFiles (a : Activation) (target : Nat) (count : Option Nat) :
    (withFiles m files).loadExtra a target count = withFiles (m.loadExtra a target count) files := by
  unfold loadExtra
  dsimp only
  split
  · rfl
  · simp only [withSlots_withFiles, copySlots_withFiles, clearFrom_withFiles]
    split <;> rfl

theorem enter_withFiles (id start n : Nat) (deliver : Deliver) (frames : List Frame) (depth : Nat) :
    (withFiles m files).enter id start n deliver frames depth =
      withFiles (m.enter id start n deliver frames depth) files := by
  have same : (withFiles m files).heap.closures = m.heap.closures := rfl
  have charged (n : Nat) : { withFiles m files with heap := (withFiles m files).heap.charge n } =
      withFiles { m with heap := m.heap.charge n } files := rfl
  cases found : m.heap.closures[id]? with
  | none =>
    simp only [enter, same, found]
    rfl
  | some c =>
    simp only [enter, same, found, charged, withSlots_withFiles, copySlots_withFiles,
      clearFrom_withFiles]
    split
    · rfl
    · split <;> rfl

theorem closeNext_withFiles (floor : Nat) : (withFiles m files).closeNext floor =
    (m.closeNext floor).map fun m => withFiles m files := by
  have same : (withFiles m files).closers = m.closers := rfl
  cases found : m.closers with
  | nil => simp only [closeNext, same, found, Option.map_none]
  | cons s rest =>
    simp only [closeNext, same, found]
    split <;> rfl

/-- An instruction that does not look at files does the same, whatever files there are.
-/
theorem execute_withFiles (a : Activation) {i : Instr} (plain : i.isPlain = true) :
    (withFiles m files).execute a i = withFiles (m.execute a i) files := by
  cases i with
  | move r b => rfl
  | getCapturedField r u k => exact fetch_withFiles m files a _ _ _ _
  | getField r b k => exact fetch_withFiles m files a _ _ _ _
  | closure r k => exact makeClosure_withFiles m files a r k
  | «return» r count closing =>
    have topped (m : Machine) (top : Nat) :
        { withFiles m files with top } = withFiles { m with top } files := rfl
    have same (m : Machine) : (withFiles m files).top = m.top := rfl
    simp only [execute]
    split
    · simp only [closeCells_withFiles, same, topped, closeNext_withFiles]
      cases closeNext _ a.base with
      | none => exact leave_withFiles _ files a _ _
      | some waiting => rfl
    · exact leave_withFiles m files a _ _
  | vararg r count => exact loadExtra_withFiles m files a r count
  | varargPrep n => rfl
  | _ => cases plain

end Machine

/-- What a step leads to, with other files. -/
def Step.withFiles (files : FileTree) : Step → Step
  | .next m => .next (Context.withFiles m files)
  | .stop s m => .stop s (Context.withFiles m files)

namespace Machine

open Context (withFiles)

/-- Does the next step call no built-in function, and is there no bound for the
memory? -/
def isPlain (m : Machine) : Bool :=
  m.heap.limit == 0 &&
    match m.control with
    | .run =>
      match m.frames with
      | .lua a :: _ => (a.body.code[m.pc]?).all Instr.isPlain
      | _ => true
    | .call (.closure _) _ _ _ nested => !nested
    | .give _ .onward => m.frames.isEmpty
    | _ => false

variable (m : Machine) (files : FileTree)

/-- So does a step of a function. -/
theorem advance_withFiles (plain : m.isPlain = true) (control : m.control = .run) :
    (withFiles m files).advance = m.advance.withFiles files := by
  simp only [isPlain, control, Bool.and_eq_true, beq_iff_eq] at plain
  obtain ⟨unlimited, plain⟩ := plain
  have unlimited' : (withFiles m files).heap.limit = 0 := unlimited
  have same : (withFiles m files).frames = m.frames := rfl
  have pc : (withFiles m files).pc = m.pc := rfl
  simp only [advance, unlimited, unlimited', same, pc, bne_self_eq_false, Bool.false_and,
    Bool.false_eq_true, if_false]
  split
  · next a rest frames =>
    simp only [frames] at plain
    cases found : a.body.code[m.pc]? with
    | none => rfl
    | some i =>
      rw [found] at plain
      exact congrArg Step.next (execute_withFiles { m with pc := m.pc + 1 } files a plain)
  · rfl

/-- The machine with a call in its place on the stack. -/
def placing (m : Machine) (f : Value) (args : Array Value) (start : Nat) : Machine :=
  ((m.withSlots (start + args.size + 1)).setSlot start f).putFrom (start + 1) args

/-- A function of the program is called. -/
theorem step_closure (run : Runner) (v : Conversation) {id : Nat} {args : Array Value} {start : Nat}
    {deliver : Deliver} (control : m.control = .call (.closure id) args start deliver false) :
    m.step run v = (.next (
      if stackBound < start + args.size + 1 then
        { m with control := .run }.raiseText (ofText "stack overflow")
      else
        let placed := { m with control := .run }.placing (.closure id) args start
        placed.enter id start args.size deliver placed.heldFrames m.depth), v) := by
  rw [step, control]
  simp only [begin, Bool.false_and, Bool.false_eq_true, if_false]
  split <;> rfl

/-- What a plain step leads to. -/
def plainStep (m : Machine) : Step := (m.step (runWithin 0) .empty).1

/-- A plain step runs nothing in its middle and tells nothing. -/
theorem step_eq_plainStep (plain : m.isPlain = true) (run : Runner) (v : Conversation) :
    m.step run v = (m.plainStep, v) := by
  simp only [isPlain, Bool.and_eq_true] at plain
  unfold plainStep
  cases control : m.control with
  | run =>
    simp only [step, control]
    rfl
  | call f args start deliver nested =>
    rw [control] at plain
    cases f with
    | closure id =>
      obtain rfl : nested = false := by simpa using plain.2
      rw [step_closure m run v control, step_closure m _ _ control]
    | _ => cases plain.2
  | give vs deliver =>
    simp only [step, control]
    rfl
  | _ =>
    rw [control] at plain
    cases plain.2

/-- A plain step does not look at files. -/
theorem plainStep_withFiles (plain : m.isPlain = true) :
    (withFiles m files).plainStep = m.plainStep.withFiles files := by
  have same : (withFiles m files).control = m.control := rfl
  unfold plainStep
  cases control : m.control with
  | run =>
    simp only [step, same, control]
    exact advance_withFiles m files plain control
  | call f args start deliver nested =>
    simp only [isPlain, control, Bool.and_eq_true] at plain
    cases f with
    | closure id =>
      obtain rfl : nested = false := by simpa using plain.2
      have put (m : Machine) : (withFiles m files).placing (.closure id) args start =
          withFiles (m.placing (.closure id) args start) files := by
        unfold placing
        rw [withSlots_withFiles]
        rfl
      have stilled : { withFiles m files with control := .run } =
          withFiles { m with control := .run } files := rfl
      rw [step_closure _ _ _ (same.trans control), step_closure m _ _ control, stilled, put,
        enter_withFiles]
      refine congrArg Step.next ?_
      split <;> rfl
    | _ => cases plain.2
  | give vs deliver =>
    simp only [isPlain, control, Bool.and_eq_true] at plain
    cases deliver with
    | onward =>
      have frames : m.frames = [] := by simpa using plain.2
      have frames' : (withFiles m files).frames = [] := frames
      simp only [step, same, control, give, giveOnward, frames, frames']
      rfl
    | _ => cases plain.2
  | _ =>
    simp only [isPlain, control, Bool.and_false] at plain
    cases plain

/-- What a run comes to, if its steps are plain and it ends after `n` of them at most. -/
def plainRun : Nat → Machine → Option (Stop × Machine)
  | 0, _ => none
  | n + 1, m =>
    if m.isPlain then
      match m.plainStep with
      | .next m => plainRun n m
      | .stop s m => some (s, m)
    else none

/-- Neither does a run of plain steps.  The induction is on their number. -/
theorem loop_withFiles {n : Nat} {answer : Stop × Machine} (plain : m.plainRun n = some answer)
    {k : Nat} (enough : n ≤ k) (run : Runner) (v : Conversation) :
    loop run k (withFiles m files) v = ((answer.1, withFiles answer.2 files), v) := by
  induction n generalizing m k with
  | zero => cases plain
  | succ n ih =>
    obtain ⟨k, rfl⟩ := Nat.exists_eq_succ_of_ne_zero (by omega : k ≠ 0)
    unfold plainRun at plain
    split at plain
    · next now =>
      have now' : (withFiles m files).isPlain = true := now
      rw [loop, Conversing.bind_apply, step_eq_plainStep _ now', plainStep_withFiles m files now]
      cases first : m.plainStep with
      | next m' =>
        rw [first] at plain
        exact ih m' plain (by omega)
      | stop s m' =>
        rw [first] at plain
        cases plain
        rfl
    · cases plain

/-! ## The host's own texts -/

/-- The machine that is about to run a text of the host. -/
def running (m : Machine) (c : Chunk) (args : Array Value) : Machine :=
  { (m.loadChunk c).2.guarded with control := .call (m.loadChunk c).1 args 1 .onward false }

/-- Does a text run to its end in plain steps? -/
def runsPlainly (m : Machine) (name text : String) (args : Array Value) : Bool :=
  match Chunk.compile (ofText name) (ofText text) compileRoom with
  | .error _ => false
  | .ok c =>
    match (m.running c args).plainRun 100 with
    | some (.returned _, _) => true
    | _ => false

/-- So does the loading of code. -/
theorem loadChunk_withFiles (c : Chunk) : (withFiles m files).loadChunk c =
    ((m.loadChunk c).1, withFiles (m.loadChunk c).2 files) := by
  simp only [loadChunk, install, Store.makeFunction_eq]
  rfl

theorem running_withFiles (c : Chunk) (args : Array Value) :
    (withFiles m files).running c args = withFiles (m.running c args) files := by
  unfold running
  rw [loadChunk_withFiles]
  rfl

/-- A text that runs to its end in plain steps. -/
theorem resultsOf_eq {name text : String} {args : Array Value} {c : Chunk} {vs : Array Value}
    {m' : Machine} (compiled : Chunk.compile (ofText name) (ofText text) compileRoom = .ok c)
    (ran : run (m.running c args) .empty = ((.returned vs, m'), .empty)) :
    m.resultsOf name text args = (vs, m'.rested) := by
  have called : (m.loadChunk c).2.callMain (m.loadChunk c).1 args .empty =
      ((.ok vs, m'.rested), .empty) := by
    have ran : run { (m.loadChunk c).2.guarded with
        control := .call (m.loadChunk c).1 args 1 .onward false } .empty = _ := ran
    rw [callMain, Conversing.bind_apply, ran]
    rfl
  simp only [resultsOf, compiled, Conversing.alone, called]

/-- The results of a text that runs to its end in plain steps do not depend on files. -/
theorem resultsOf_withFiles {name text : String} {args : Array Value}
    (plain : m.runsPlainly name text args = true) :
    (withFiles m files).resultsOf name text args =
      ((m.resultsOf name text args).1, withFiles (m.resultsOf name text args).2 files) := by
  unfold runsPlainly at plain
  cases compiled : Chunk.compile (ofText name) (ofText text) compileRoom with
  | error e => simp only [compiled, Bool.false_eq_true] at plain
  | ok c =>
    simp only [compiled] at plain
    cases ran : (m.running c args).plainRun 100 with
    | none => simp only [ran, Bool.false_eq_true] at plain
    | some answer =>
      obtain ⟨stop, m'⟩ := answer
      cases stop with
      | returned vs =>
        have enough : 100 ≤ stepBudget := by decide
        have ends (files : FileTree) : (withFiles m files).resultsOf name text args =
            (vs, withFiles m'.rested files) := by
          have loop := loop_withFiles _ files ran enough (runWithin 229) .empty
          rw [← running_withFiles] at loop
          exact resultsOf_eq _ compiled loop
        rw [ends files]
        have own : m.resultsOf name text args = (vs, withFiles m'.rested m.heap.files) :=
          ends m.heap.files
        rw [own]
        rfl
      | _ => simp only [ran, Bool.false_eq_true] at plain

/-! ## A new context -/

theorem setGlobal_withFiles (name : String) (v : Value) :
    (withFiles m files).setGlobal name v = withFiles (m.setGlobal name v) files := by
  have set := Heap.rawSetStr_withFiles m.heap.toHeap files m.heap.globals (ofText name) v
  exact congrArg m.withHeap set

/-- The machine with the loaders that the host's text has made. -/
def withLoaders (made : Array Value × Machine) : Machine :=
  (loaderNames.zip made.1.toList).foldl (fun m x => m.setGlobal x.1 x.2) made.2

/-- The loaders are put into place after one run of a text, by its results. -/
theorem withTextLoaders_eq :
    m.withTextLoaders = withLoaders (m.resultsOf "=loaders" textLoaders #[]) := by
  unfold withTextLoaders withLoaders
  generalize m.resultsOf _ _ _ = made
  rfl

/-- The induction is on the globals that are set. -/
theorem withLoaders_withFiles (made : Array Value × Machine) :
    withLoaders (made.1, withFiles made.2 files) = withFiles (withLoaders made) files := by
  obtain ⟨fs, m⟩ := made
  unfold withLoaders
  dsimp only
  induction loaderNames.zip fs.toList generalizing m with
  | nil => rfl
  | cons x rest ih =>
    rw [List.foldl_cons, List.foldl_cons, ← ih]
    exact congrArg (rest.foldl _) (setGlobal_withFiles m files x.1 x.2)

/-- As that run does not look at files, the loaders come to the same. -/
theorem withTextLoaders_withFiles (plain : m.runsPlainly "=loaders" textLoaders #[] = true) :
    (withFiles m files).withTextLoaders = withFiles m.withTextLoaders files := by
  rw [withTextLoaders_eq, withTextLoaders_eq, resultsOf_withFiles m files plain]
  exact withLoaders_withFiles files _

/-- A callback is put into place alike. -/
theorem withCallback_withFiles (c : Callback) (plain : c.suspends = true →
    m.runsPlainly ("=" ++ c.name) suspender #[.builtin (.host c)] = true) :
    (withFiles m files).withCallback c = withFiles (m.withCallback c) files := by
  unfold withCallback
  split
  · next suspends =>
    rw [resultsOf_withFiles m files (plain suspends)]
    generalize m.resultsOf _ _ _ = made
    exact setGlobal_withFiles made.2 files c.name (made.1.getD 0 .nil)
  · exact setGlobal_withFiles m files c.name (.builtin (.host c))

theorem idle_withFiles (h : Heap) : idle (h.withFiles files) = withFiles (idle h) files := rfl

/-- The machine of a new context is the same for all files, as the host's own texts run
to their ends in plain steps. -/
theorem equipped_withFiles
    (loaders : (fresh .empty).runsPlainly "=loaders" textLoaders #[] = true)
    (next : ((fresh .empty).withTextLoaders.withCallback .message).runsPlainly
      ("=" ++ Callback.advance.name) suspender #[.builtin (.host .advance)] = true) :
    equipped files = withFiles (equipped .empty) files := by
  have begun : fresh files = withFiles (fresh .empty) files := by
    rw [fresh, Heap.fresh_eq, idle_withFiles, fresh]
  rw [equipped, equipped, begun, withTextLoaders_withFiles _ files loaders]
  generalize (fresh .empty).withTextLoaders = m at next
  simp only [withCallbacks, Callback.all, List.foldl_cons, List.foldl_nil]
  rw [withCallback_withFiles m files .message nofun]
  generalize m.withCallback .message = m at next
  rw [withCallback_withFiles m files .advance fun _ => next]
  generalize m.withCallback .advance = m
  rw [withCallback_withFiles m files .close nofun]

end Machine

end Lua

end NpcDialog
