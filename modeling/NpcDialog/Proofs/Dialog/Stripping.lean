import NpcDialog.Proofs.Dialog.Furnishing
import NpcDialog.Proofs.Dialog.Tasks
import NpcDialog.Proofs.Dialog.Veiled

/-!
# Stripping

The notes on compiled code are there for the messages of faults and for nothing else,
but they take memory.  Whether they are kept makes no difference to what an extraction
comes to; and a context that runs code without its notes shows the same at every request
as one that runs the code with them, unless the program is shown something that the notes
tell, or how much memory is in use.

* `Context.Veiled.moments` — contexts that differ in notes.
* `Context.Untold` — nothing that notes tell is shown to the scripts of a context.
* `stripping_changes_nothing` — the result.
-/

namespace NpcDialog

open Lua Extraction

open Lua.Veil (notes)

/-! ## Contexts -/

namespace Context

variable {c d : Context}

/-- What is seen at a request of two contexts that differ in notes. -/
theorem Veiled.moment (h : Veiled notes c d) {q r : Request} (leaner : Leaner notes q r) (host : Host)
    (quiet : notes.revealed (c.serve q host).value.2.machine = notes.revealed c.machine ∨
      notes.revealed (d.serve r host).value.2.machine = notes.revealed d.machine) :
    c.moment host q = d.moment host r ∧
      Veiled notes (c.serve q host).value.2 (d.serve r host).value.2 := by
  obtain ⟨answer, hosts, events, after⟩ := (h.serve leaner host).2.2 quiet
  refine ⟨?_, after⟩
  simp only [Context.moment, answer, hosts, events, after.state, Context.suspensions, after.task]

/-! ## Requests -/

/-- The context after it was asked for one thing after the other. -/
def later (c : Context) : List (Host × Request) → Context
  | [] => c
  | (h, q) :: rest => (c.serve q h).value.2.later rest

/-- Requests that are made at the same host. -/
def Counterparts (p q : Host × Request) : Prop := p.1 = q.1 ∧ Leaner notes p.2 q.2

/-- Nothing that was shown is taken back. -/
theorem revealed_le_later (c : Context) (requests : List (Host × Request)) :
    notes.revealed c.machine ≤ notes.revealed (c.later requests).machine := by
  induction requests generalizing c with
  | nil => exact Nat.le_refl _
  | cons p rest ih => exact Nat.le_trans (revealed_le_serve notes c p.2 p.1) (ih _)

/-- What is seen of two contexts that differ in notes.  The induction is on the requests; if
nothing was shown in the end then nothing was shown at any of them. -/
theorem Veiled.moments (h : Veiled notes c d) {requests requests' : List (Host × Request)}
    (leaner : List.Forall₂ Counterparts requests requests')
    (quiet : notes.revealed (c.later requests).machine = notes.revealed c.machine ∨
      notes.revealed (d.later requests').machine = notes.revealed d.machine) :
    c.moments requests = d.moments requests' := by
  induction leaner generalizing c d with
  | nil => rfl
  | @cons p q rest rest' first _ ih =>
    obtain ⟨host, request⟩ := p
    obtain ⟨host', request'⟩ := q
    obtain ⟨rfl, leaner⟩ : host = host' ∧ Leaner notes request request' := first
    obtain ⟨grows, grows', -⟩ := h.serve leaner host
    have least := revealed_le_later (c.serve request host).value.2 rest
    have least' := revealed_le_later (d.serve request' host).value.2 rest'
    simp only [Context.later] at quiet
    obtain ⟨moment, after⟩ := h.moment leaner host (by omega)
    simp only [Context.moments, moment]
    rw [ih after]
    have shown := h.revealed
    have shown' := after.revealed
    omega

/-- Twins stay twins. -/
theorem Twins.later {s : SessionId} {e : EntityId} {s' : SessionId} {e' : EntityId}
    (twins : Twins s e s' e' c d) {requests requests' : List (Host × Request)}
    (alike : List.Forall₂ Alike requests requests') :
    Twins s e s' e' (c.later requests) (d.later requests') := by
  induction alike generalizing c d with
  | nil => exact twins
  | @cons p q rest rest' same _ ih =>
    obtain ⟨h, request⟩ := p
    obtain ⟨h', request'⟩ := q
    obtain ⟨files, rfl⟩ : h.files = h'.files ∧ request = request' := same
    exact ih (twins.moment files request).2

/-- Nothing that notes tell is shown to the scripts of a new context that is asked for one
thing after the other: no fault that knows its place in the code becomes a value, be it
caught, seen by a message handler or shown by the host, and neither the place of a call nor
code with its notes is asked for; and the bytes in use, which are more with notes, are not
asked for.  So it is if no fault is raised, no code is dumped and the memory is not
weighed. -/
def Untold (config : Config) (s : SessionId) (e : EntityId) (h : Host)
    (requests : List (Host × Request)) : Prop :=
  ∀ c, (create config s e h).value = .ok c → (c.later requests).machine.shown = c.machine.shown

/-- What is asked of two contexts while their hosts find the same files: the same, or to run
the one code and the other. -/
def Parallel (code code' : Bytecode) (p q : Host × Request) : Prop :=
  p.1.files = q.1.files ∧ (p.2 = q.2 ∨ p.2 = .run code ∧ q.2 = .run code')

/-- First the code changes and then the hosts. -/
theorem exists_between (f : FunctionCode) {requests requests' : List (Host × Request)}
    (parallel : List.Forall₂ (Parallel (archive f false) (archive f true)) requests requests') :
    ∃ between, List.Forall₂ Counterparts requests between ∧
      List.Forall₂ Alike between requests' := by
  induction parallel with
  | nil => exact ⟨[], .nil, .nil⟩
  | @cons p q _ _ first _ ih =>
    obtain ⟨between, leaner, alike⟩ := ih
    obtain ⟨files, same⟩ := first
    refine ⟨(p.1, q.2) :: between, .cons ⟨rfl, ?_⟩ leaner, .cons ⟨files, rfl⟩ alike⟩
    rcases same with same | ⟨left, right⟩
    · rw [same]
      exact .same _
    · rw [left, right]
      exact .run rfl f

theorem ascribe_self (s : SessionId) (e : EntityId) (x : Moment) : x.ascribe s e s e = x := by
  have events (ev : Event) : Event.ascribe s e s e ev = ev := by
    unfold Event.ascribe
    split
    · next own =>
      obtain ⟨rfl, rfl⟩ := own
      rfl
    · rfl
  simp [Moment.ascribe, funext events]

/-- A machine is made ready without regard to notes. -/
theorem prepare_noted (files : FileTree) :
    Machine.prepare ⟨false, none⟩ files = Machine.prepare ⟨true, none⟩ files := by
  unfold Machine.prepare
  generalize Machine.equipped files = m
  rfl

theorem create_noted (s : SessionId) (e : EntityId) (h : Host) :
    create ⟨false, none⟩ s e h = create ⟨true, none⟩ s e h := by
  unfold create
  rw [funext prepare_noted]

/-- Two new contexts show the same at every request, whether the code has its notes or not. -/
theorem replay_stripped (s : SessionId) (e : EntityId) (f : FunctionCode) {h h' : Host}
    (files : h.files = h'.files) {requests requests' : List (Host × Request)}
    (parallel : List.Forall₂ (Parallel (archive f false) (archive f true)) requests requests')
    (untold : Untold ⟨false, none⟩ s e h requests ∨ Untold ⟨true, none⟩ s e h' requests') :
    ∃ moments, replay ⟨false, none⟩ s e h requests = .ok moments ∧
      replay ⟨true, none⟩ s e h' requests' = .ok moments := by
  obtain ⟨c, made⟩ := create_of_unlimited (rfl : Config.memoryLimit ⟨false, none⟩ = none) s e h
  obtain ⟨d, made'⟩ := create_of_unlimited (rfl : Config.memoryLimit ⟨true, none⟩ = none) s e h'
  have twins : Twins s e s e c d := by
    have made₂ := (matches_create ⟨true, none⟩ s e s e h h' files).1
    rw [made', ← create_noted, made] at made₂
    cases made₂ with
    | ok twins => exact twins
  obtain ⟨between, leaner, alike⟩ := exists_between f parallel
  have seen : c.moments requests = c.moments between := by
    refine (Veiled.refl notes c).moments leaner (untold.imp (fun untold => ?_) fun untold => ?_)
    · exact Veil.revealed_of_shown (untold c made)
    · rw [(twins.later alike).machine, twins.machine]
      exact Veil.revealed_of_shown (untold d made')
  have ascribed : c.moments between = d.moments requests' := by
    simpa [funext (ascribe_self s e)] using twins.moments alike
  refine ⟨c.moments requests, ?_, ?_⟩
  · rw [replay, made]
    rfl
  · rw [replay, made', seen, ascribed]
    rfl

end Context

/-! ## Extraction -/

/-- Metadata without code, but for whether there is any. -/
def Metadata.hull (k : Metadata) : Metadata :=
  { k with code := k.code.map fun _ => ⟨ByteArray.empty⟩ }

/-- What is kept of an entry function is its code, with notes or without, unless there is
none, or it is refused. -/
theorem exists_entryCode (path : String) (m : Machine) (v : Option Value) :
    ∃ kept : Except CompileCause (Option FunctionCode), ∀ strip h,
      (entryCode ⟨strip, none⟩ path m v h).value = kept.map (Option.map (archive · strip)) := by
  cases v with
  | none => exact ⟨.ok none, fun strip h => rfl⟩
  | some v =>
    cases code : m.codeOf v with
    | none =>
      refine ⟨.ok none, fun strip h => ?_⟩
      simp only [entryCode, code]
      rfl
    | some f =>
      rcases lost : lostNames f with reason | ⟨_ | ⟨name, names⟩⟩
      · refine ⟨.error (.unexpected (.notText reason)), fun strip h => ?_⟩
        simp only [entryCode, code, lost]
        rfl
      · refine ⟨.ok (some f), fun strip h => ?_⟩
        simp only [entryCode, code, lost]
        rfl
      · refine ⟨.error (.capturesLocals (name :: names)), fun strip h => ?_⟩
        simp only [entryCode, code, lost]
        rfl

/-- What an extraction comes to depends on whether notes are kept only in the code. -/
theorem exists_extract (path source : String) (files : FileTree) :
    ∃ found : Except CompileFault (Metadata × Option FunctionCode), ∀ strip (h : Host),
      h.files = files → (Metadata.extract ⟨strip, none⟩ path source h).value =
        found.map fun x => { x.1 with code := x.2.map (archive · strip) } := by
  have same (strip : Bool) : evaluated ⟨strip, none⟩ path source files =
      evaluated ⟨true, none⟩ path source files := rfl
  rcases result : evaluated ⟨true, none⟩ path source files with cause | ⟨failure | returned, m⟩
  · refine ⟨.error ⟨path, cause⟩, ?_⟩
    rintro strip h rfl
    simp only [Metadata.extract, Action.bind_apply, Action.log_apply, Action.files_apply, same,
      result]
    rfl
  · refine ⟨.error ⟨path, .notEvaluated failure⟩, ?_⟩
    rintro strip h rfl
    simp only [Metadata.extract, Action.bind_apply, Action.log_apply, Action.files_apply, same,
      result]
    rfl
  · rcases entered : entry m (descriptor m returned) with ⟨v, m'⟩
    obtain ⟨kept, coded⟩ := exists_entryCode path m' v
    cases kept with
    | error cause =>
      refine ⟨.error ⟨path, cause⟩, ?_⟩
      rintro strip h rfl
      simp only [Metadata.extract, Action.bind_apply, Action.log_apply, Action.files_apply, same,
        result, entered, coded]
      rfl
    | ok f =>
      refine ⟨.ok ((fields path (descriptor m returned) none m').1, f), ?_⟩
      rintro strip h rfl
      simp only [Metadata.extract, Action.bind_apply, Action.log_apply, Action.files_apply, same,
        result, entered, coded]
      rfl

/-- Stripping changes nothing but diagnostics: an extraction comes to the same, whether it
keeps the notes or not; and contexts for the same session and entity that run the one code
and the other, and find the same files, show the same at every request, as long as nothing
that notes tell is shown to the scripts of one of them. -/
theorem stripping_changes_nothing (path source : String) {h h' : Host} (files : h.files = h'.files) :
    (Metadata.extract ⟨false, none⟩ path source h).value.map Metadata.hull =
        (Metadata.extract ⟨true, none⟩ path source h').value.map Metadata.hull ∧
      ∀ known known' code code',
        (Metadata.extract ⟨false, none⟩ path source h).value = .ok known →
        (Metadata.extract ⟨true, none⟩ path source h').value = .ok known' →
        known.code = some code → known'.code = some code' →
        ∀ s e (k k' : Host) requests requests', k.files = k'.files →
          List.Forall₂ (Context.Parallel code code') requests requests' →
          Context.Untold ⟨false, none⟩ s e k requests ∨ Context.Untold ⟨true, none⟩ s e k' requests' →
          ∃ moments, Context.replay ⟨false, none⟩ s e k requests = .ok moments ∧
            Context.replay ⟨true, none⟩ s e k' requests' = .ok moments := by
  obtain ⟨found, extracted⟩ := exists_extract path source h'.files
  rw [extracted false h files, extracted true h' rfl]
  constructor
  · rcases found with fault | ⟨known, f⟩
    · rfl
    · cases f <;> rfl
  · intro known known' code code' accepted accepted' has has' s e k k' requests requests' same parallel
      untold
    rcases found with fault | ⟨known₀, f⟩
    · cases accepted
    · cases accepted
      cases accepted'
      obtain ⟨f, rfl, rfl⟩ := Option.map_eq_some_iff.1 has
      obtain rfl := Option.some.inj has'
      exact Context.replay_stripped s e f same parallel untold

/-- The code of the entry function of a script. -/
def keptCode (source : String) (strip : Bool) : Option Bytecode :=
  (Metadata.extract ⟨strip, none⟩ "ana.lua" source (.start .empty)).value.toOption.bind Metadata.code

theorem exists_of_keptCode {source : String} {strip : Bool} {code : Bytecode}
    (kept : keptCode source strip = some code) :
    ∃ known, (Metadata.extract ⟨strip, none⟩ "ana.lua" source (.start .empty)).value = .ok known ∧
      known.code = some code := by
  obtain ⟨known, accepted, has⟩ := Option.bind_eq_some_iff.1 kept
  refine ⟨known, ?_, has⟩
  generalize (Metadata.extract ⟨strip, none⟩ "ana.lua" source (.start .empty)).value = x at accepted
  cases x <;> cases accepted
  rfl

/-- A script whose entry function has variables of its own. -/
def counting : String :=
  "name = 'Ana'\nfunction script()\n  local n = 1\n  mes('Call ' .. n)\n  next()\n" ++
    "  mes('Call ' .. n + 1)\nend\n"

/-- The script is run and goes on once. -/
def countingRequests (code : Bytecode) : List (Host × Request) :=
  [(.start .empty, .run code), (.start .empty, .resume)]

/-- Its code is longer with notes, and nothing that they tell is shown to it. -/
theorem counting_untold :
    (do
      let code ← keptCode counting false
      let code' ← keptCode counting true
      let c ← (Context.create ⟨false, none⟩ ⟨1⟩ ⟨2⟩ (.start .empty)).value.toOption
      let d := c.later (countingRequests code)
      return (decide (code'.size < code.size), d.suspensions,
        decide (d.machine.shown = c.machine.shown))) = some (true, 1, true) := by
  rw [Context.create_eq_furnish]
  decide +kernel

theorem stripping_changes_nothing_counting :
    ∃ code code' moments, keptCode counting false = some code ∧ keptCode counting true = some code' ∧
      code'.size < code.size ∧
      Context.replay ⟨false, none⟩ ⟨1⟩ ⟨2⟩ (.start .empty) (countingRequests code) = .ok moments ∧
      Context.replay ⟨true, none⟩ ⟨1⟩ ⟨2⟩ ⟨⟨7⟩, .empty⟩ (countingRequests code') = .ok moments := by
  obtain ⟨code, kept, told⟩ := Option.bind_eq_some_iff.1 counting_untold
  obtain ⟨code', kept', told⟩ := Option.bind_eq_some_iff.1 told
  obtain ⟨c, made, told⟩ := Option.bind_eq_some_iff.1 told
  obtain ⟨known, accepted, has⟩ := exists_of_keptCode kept
  obtain ⟨known', accepted', has'⟩ := exists_of_keptCode kept'
  have told := Option.some.inj told
  rw [Prod.mk.injEq, Prod.mk.injEq] at told
  obtain ⟨smaller, -, still⟩ := told
  have untold : Context.Untold ⟨false, none⟩ ⟨1⟩ ⟨2⟩ (.start .empty) (countingRequests code) := by
    intro d made'
    rw [made'] at made
    cases made
    exact of_decide_eq_true still
  have parallel : List.Forall₂ (Context.Parallel code code') (countingRequests code)
      (countingRequests code') :=
    .cons ⟨rfl, .inr ⟨rfl, rfl⟩⟩ (.cons ⟨rfl, .inl rfl⟩ .nil)
  have files : (Host.start .empty).files = Host.files ⟨⟨7⟩, .empty⟩ := rfl
  obtain ⟨moments, noted, bare⟩ := (stripping_changes_nothing "ana.lua" counting rfl).2 known known'
    code code' accepted accepted' has has' ⟨1⟩ ⟨2⟩ _ _ _ _ files parallel (.inl untold)
  exact ⟨code, code', moments, kept, kept', of_decide_eq_true smaller, noted, bare⟩

/-- A script that asks how much memory is in use. -/
def weighing : String := "function script() mes(collectgarbage('count')) end"

/-- It says something else when it has its notes. -/
theorem weighing_heard :
    (do
      let code ← keptCode weighing false
      let code' ← keptCode weighing true
      let c ← Context.furnish ⟨false, none⟩ ⟨1⟩ ⟨2⟩ (.start .empty)
      return decide ((c.moments [(.start .empty, .run code)]).map Moment.events =
        (c.moments [(.start .empty, .run code')]).map Moment.events)) = some false := by
  decide +kernel

/-- So notes do matter to a script that asks how much memory is in use: it raises no fault,
but what is heard of its code with notes and of its code without them is not the same. -/
theorem notes_are_weighed :
    ∃ known known' code code' moments moments',
      (Metadata.extract ⟨false, none⟩ "ana.lua" weighing (.start .empty)).value = .ok known ∧
      (Metadata.extract ⟨true, none⟩ "ana.lua" weighing (.start .empty)).value = .ok known' ∧
      known.code = some code ∧ known'.code = some code' ∧
      Context.replay ⟨false, none⟩ ⟨1⟩ ⟨2⟩ (.start .empty) [(.start .empty, .run code)] = .ok moments ∧
      Context.replay ⟨true, none⟩ ⟨1⟩ ⟨2⟩ (.start .empty) [(.start .empty, .run code')] = .ok moments' ∧
      moments.map Moment.events ≠ moments'.map Moment.events := by
  obtain ⟨code, kept, heard⟩ := Option.bind_eq_some_iff.1 weighing_heard
  obtain ⟨code', kept', heard⟩ := Option.bind_eq_some_iff.1 heard
  obtain ⟨c, furnished, heard⟩ := Option.bind_eq_some_iff.1 heard
  obtain ⟨known, accepted, has⟩ := exists_of_keptCode kept
  obtain ⟨known', accepted', has'⟩ := exists_of_keptCode kept'
  have made := congrArg Told.value (Context.create_of_furnish furnished)
  have replayed (strip : Bool) (code : Bytecode) :
      Context.replay ⟨strip, none⟩ ⟨1⟩ ⟨2⟩ (.start .empty) [(.start .empty, .run code)] =
        .ok (c.moments [(.start .empty, .run code)]) := by
    have again : (Context.create ⟨strip, none⟩ ⟨1⟩ ⟨2⟩ (.start .empty)).value = .ok c := by
      cases strip
      · exact made
      · rw [← Context.create_noted]
        exact made
    rw [Context.replay, again]
    rfl
  exact ⟨known, known', code, code', _, _, accepted, accepted', has, has', replayed false code,
    replayed true code', of_decide_eq_false (Option.some.inj heard)⟩

end NpcDialog
