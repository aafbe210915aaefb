import NicTuning.Bench.Script
import NicTuning.CommandLine.Run
import NicTuning.Proofs.Activity
import NicTuning.Proofs.Undoing

/-!
# Applying parameters

Main statement: when parameters are applied, the program is run just if the devices could be
configured, every layer is restored in any case, and the code to end with is that of the first thing
that went wrong.
-/
namespace NicTuning

namespace Stack

/-- Layers are restored one after the other, each in the session that the one before has left,
whatever became of that one. -/
inductive RestoresEach : List Layer → Bench × Ledger → List (String × Except Fault Unit) →
    Bench × Ledger → Prop
  | nil {s} : RestoresEach [] s [] s
  | cons {layer rest s s' s'' result tries} (here : layer.restore s = (result, s'))
      (others : RestoresEach rest s' tries s'') :
      RestoresEach (layer :: rest) s ((layer.key, result) :: tries) s''

/-- The tries that ended with a fault. -/
def failuresOf (tries : List (String × Except Fault Unit)) : List (String × Fault) :=
  tries.filterMap fun t =>
    match t.2 with
    | .ok () => none
    | .error fault => some (t.1, fault)

theorem failures_restoreLayer (layer : Layer) (u : Undoing) (s : Bench × Ledger) :
    (restoreLayer layer u s).1.failures =
      u.failures ++ failuresOf [(layer.key, (layer.restore s).1)] := by
  unfold restoreLayer
  rcases layer.restore s with ⟨fault | ⟨⟩, s'⟩
  · rfl
  · dsimp only
    split <;> exact (List.append_nil _).symm

/-- Restoring layers tries each of them and lists the tries that ended with a fault. -/
theorem restoreAll_each (layers : List Layer) (u : Undoing) (s : Bench × Ledger) :
    ∃ tries, RestoresEach layers s tries (restoreAll u layers s).2 ∧
      (restoreAll u layers s).1.failures = u.failures ++ failuresOf tries := by
  induction layers generalizing u s with
  | nil => exact ⟨[], .nil, (List.append_nil _).symm⟩
  | cons layer rest ih =>
    obtain ⟨tries, heach, hfailures⟩ := ih (restoreLayer layer u s).1 (layer.restore s).2
    rw [restoreAll_cons]
    refine ⟨_, .cons rfl heach, ?_⟩
    rw [hfailures, failures_restoreLayer, List.append_assoc, failuresOf, failuresOf,
      ← List.filterMap_append]
    rfl

end Stack

/-! ## Programs -/

/-- A program is started. -/
def Event.IsProgram (e : Event) : Prop := ∃ words input, e = .started words input

/-- No intent involves a program. -/
theorem Intent.Involves.not_isProgram {i : Intent} {e : Event} (h : i.Involves e) :
    ¬e.IsProgram := by
  refine h.of_begins (P := fun e => ¬e.IsProgram) ?_ ?_ ?_ ?_
  · exact fun _ _ => by simp [Event.IsProgram]
  · exact fun _ _ _ _ _ _ => by simp [Event.IsProgram]
  · exact fun _ _ _ _ _ _ => by simp [Event.IsProgram]
  · exact fun _ _ _ _ _ => by simp [Event.IsProgram]

/-- Nor does a step that takes back a change. -/
theorem Remedy.Involves.not_isProgram {r : Remedy} {e : Event} (h : r.Involves e) :
    ¬e.IsProgram := by
  cases r with
  | write d name value =>
    obtain ⟨b, h⟩ := h
    refine d.forall_setEvents name value b (P := fun e => ¬e.IsProgram) ?_ ?_ e h
    · exact fun _ _ => by simp [Event.IsProgram]
    · exact fun _ _ _ _ _ => by simp [Event.IsProgram]
  | command host command =>
    rintro ⟨words, input, rfl⟩
    cases h

namespace CommandLine

/-- How applying parameters ends, by what became of the configuring, of the program and of the
restoring: with a code, and with a failure to be told. -/
inductive EndsWith (command : List String) : Except Fault Unit → Except String Output →
    List (String × Fault) → Int → Option Failure → Prop
  | unconfigured {fault program failures} : EndsWith command (.error fault) program failures 1
      (some (.during "configuring devices" fault))
  | unstarted {cause failures} : EndsWith command (.ok ()) (.error cause) failures 1
      (some ⟨"running " ++ command.headD "", [cause]⟩)
  | failed {output failures} (code : output.exitCode ≠ 0) :
      EndsWith command (.ok ()) (.ok output) failures (output.exitCode % 256) none
  | unrestored {output key fault failures} (code : output.exitCode = 0) :
      EndsWith command (.ok ()) (.ok output) ((key, fault) :: failures) 1
        (some (.during "restoring devices" fault))
  | done {output} (code : output.exitCode = 0) : EndsWith command (.ok ()) (.ok output) [] 0 none

/-- A program that was killed gives the greatest code there is. -/
theorem EndsWith.of_killed {command : List String} {output : Output}
    {failures : List (String × Fault)} {code : Int} {failure? : Option Failure} {signal : Nat}
    (h : EndsWith command (.ok ()) (.ok output) failures code failure?)
    (hkilled : output.exitCode = (Shell.Ending.killed signal).code) : code = 255 := by
  have hcode : output.exitCode = -1 := hkilled
  cases h with
  | failed =>
    rw [hcode]
    rfl
  | unrestored hzero => cases hcode.symm.trans hzero
  | done hzero => cases hcode.symm.trans hzero

/-- What a program has printed to its error stream, if it was started. -/
def errorsOf (configured : Except Fault Unit) (program : Except String Output) : String :=
  match configured, program with
  | .ok (), .ok output => output.stderr
  | _, _ => ""

/-- The line for a layer that could not be restored. -/
def warning (failure : String × Fault) : String :=
  "warning: failed to restore " ++ (failure.1 ++ ": " ++ failure.2.message)

/-- The program is started if the devices could be configured. -/
def started (configured : Except Fault Unit) (command : List String) (input : String) :
    List Event :=
  match configured with
  | .ok () => [.started command input]
  | .error _ => []

/-- What is known of a program that may not have been started. -/
def programOf (configured : Except Fault Unit) (program : Except String Output) :
    Option (Except String Output) :=
  configured.toOption.map fun _ => program

namespace Applied

variable {a : Applied} {program : Except String Output}

/-- What is said of an outcome is how it ended. -/
theorem verdict_endsWith (h : a.program = programOf a.configured program) (command : List String) :
    EndsWith command a.configured program a.undoing.failures (a.verdict command).1
      (a.verdict command).2 := by
  unfold verdict
  rw [h]
  cases a.configured with
  | error fault => exact .unconfigured
  | ok =>
    cases program with
    | error cause => exact .unstarted
    | ok output =>
      dsimp only [programOf, Except.toOption, Option.map]
      by_cases hcode : output.exitCode = 0
      · rw [if_neg (not_not.2 hcode)]
        unfold Undoing.check
        cases a.undoing.failures with
        | nil => exact .done hcode
        | cons failure rest => exact .unrestored hcode
      · rw [if_pos hcode]
        exact .failed hcode

theorem printed_eq (h : a.program = programOf a.configured program) :
    a.printed.2 = errorsOf a.configured program := by
  unfold printed errorsOf
  rw [h]
  cases a.configured with
  | error fault => rfl
  | ok => cases program <;> rfl

theorem output_eq (a : Applied) (lines command : List String) :
    (a.output lines command).exitCode = (a.verdict command).1 ∧
      (a.output lines command).stderr =
        a.printed.2 ++ a.warnings ++ (a.verdict command).2.elim "" Failure.text := by
  unfold output
  rcases a.verdict command with ⟨code, failure⟩
  exact ⟨rfl, rfl⟩

end Applied

/-- The outcome of applying parameters with a program. -/
theorem apply_eq {s : Surroundings} {stack : Stack} {command : List String} {input : String}
    {configured : Except Fault Unit} {b : Bench} {l : Ledger} {program : Except String Output}
    (hcommand : command ≠ []) (hconfigured : stack.configure (s.bench, .empty) = (configured, b, l))
    (hprogram : s.start b.journal command input = program) : ∃ lines,
    apply s stack command input =
      (⟨configured, programOf configured program,
          (stack.restore (b.after (started configured command input), l)).1⟩, lines,
        (stack.restore (b.after (started configured command input), l)).2.1) := by
  have hrun : runProgram s command input b = (program, b.after [.started command input]) := by
    rw [← hprogram]
    cases command with
    | nil => exact absurd rfl hcommand
    | cons word rest => rfl
  unfold apply
  rw [hconfigured]
  cases configured with
  | error fault => exact ⟨_, rfl⟩
  | ok =>
    dsimp only
    rw [hrun]
    exact ⟨_, rfl⟩

/-- To apply parameters with a program, the program is started once if the devices could be
configured, and not at all otherwise. After that every layer is restored, be it that the configuring
failed, that the program could not be started, or that the program or another layer failed. Each
layer that could not be restored is told in a line of its own, and the code to end with is that of
the first thing that went wrong: the configuring, the start of the program, the program, the
restoring. -/
theorem apply_restores_always {s : Surroundings} {words command : List String} {sel : Selection}
    {stack : Stack} {configured : Except Fault Unit} {b : Bench} {l : Ledger}
    {program : Except String Output} (hwords : Request.ofWords? words = some (.apply sel command))
    (hcommand : command ≠ []) (hstack : sel.stack s = .ok stack)
    (hconfigured : stack.configure (s.bench, .empty) = (configured, b, l))
    (hprogram : s.start b.journal command (sel.remainingInput s) = program) :
    ∃ configuring restoring tries l' failure?,
      b = s.bench.after configuring ∧
      (run s words).2 = s.bench.after
        (restoring ++ (started configured command (sel.remainingInput s) ++ configuring)) ∧
      (∀ e ∈ restoring ++ configuring, ¬e.IsProgram) ∧
      Stack.RestoresEach stack.reverse
        (b.after (started configured command (sel.remainingInput s)), l) tries
        ((run s words).2, l') ∧
      EndsWith command configured program (Stack.failuresOf tries) (run s words).1.exitCode
        failure? ∧
      (run s words).1.stderr = errorsOf configured program ++
        Text.ofLines ((Stack.failuresOf tries).map warning) ++ failure?.elim "" Failure.text ∧
      ∀ output signal, configured = .ok () → program = .ok output →
        output.exitCode = (Shell.Ending.killed signal).code → (run s words).1.exitCode = 255 := by
  obtain ⟨lines, happly⟩ := apply_eq hcommand hconfigured hprogram
  let input := sel.remainingInput s
  let session : Bench × Ledger := (b.after (started configured command input), l)
  let a : Applied := ⟨configured, programOf configured program, (stack.restore session).1⟩
  have hrun : run s words = (a.output lines command, (stack.restore session).2.1) := by
    unfold run
    rw [hwords]
    dsimp only
    rw [hstack]
    dsimp only
    rw [happly]
  obtain ⟨hcode, herrors⟩ := a.output_eq lines command
  obtain ⟨tries, heach, hfailures⟩ := Stack.restoreAll_each stack.reverse .none session
  have hfailures : a.undoing.failures = Stack.failuresOf tries := hfailures
  have hends := a.verdict_endsWith rfl command
  rw [← hcode, hfailures] at hends
  rw [Applied.printed_eq rfl, Applied.warnings, hfailures] at herrors
  obtain ⟨configuring, hconfiguring, hnone⟩ := stack.configure_emits (s.bench, .empty)
  have hsound := stack.sound_configure s.bench
  rw [hconfigured] at hconfiguring hsound
  obtain rfl : b = s.bench.after configuring := hconfiguring
  obtain ⟨restoring, hrestoring, hnone'⟩ := stack.restore_emits session.1 hsound
  rw [hrun]
  refine ⟨configuring, restoring, tries, _, _, rfl, ?_, fun e he => ?_, heach, hends, herrors, ?_⟩
  · change (stack.restore (session.1, l)).2.1 = _
    rw [hrestoring, Bench.after_after, Bench.after_after, List.append_assoc]
  · rcases List.mem_append.1 he with he | he
    · obtain ⟨key, r, -, hr⟩ := hnone' e he
      exact hr.not_isProgram
    · obtain ⟨i, -, hi⟩ := hnone e he
      exact hi.not_isProgram
  · rintro output signal rfl rfl hkilled
    exact hends.of_killed hkilled

/-- A machine that takes no smaller packets again, on which programs are killed. -/
def stuckMachine : Surroundings where
  input := "mtu: 9000\n"
  file _ := .error "No such file or directory"
  bench := (Bench.quiet.addRule "" ⟨"cat /sys/class/net/eth0/mtu", .ok "1500\n"⟩).addRule ""
    ⟨"ip link set dev eth0 mtu 1500", .failed 2 "RTNETLINK answers: Device or resource busy\n"⟩
  start _ _ _ := .ok ⟨"", "interrupted\n", (Shell.Ending.killed 15).code⟩

def stuckWords : List String := ["apply", "--params", "-", "--dev", "eth0", "--", "sleep", "9"]

def stuckSelection : Selection := ⟨"-", ["eth0"], [], none, "localhost"⟩

def stuckStack : Stack := (stuckSelection.stack stuckMachine).toOption.getD []

/-- The program is killed, which the failure to restore does not hide. -/
theorem apply_restores_on_stuck_machine :
    Request.ofWords? stuckWords = some (.apply stuckSelection ["sleep", "9"]) ∧
    stuckSelection.stack stuckMachine = .ok stuckStack ∧
    ∃ configuring restoring tries,
      (run stuckMachine stuckWords).2 = stuckMachine.bench.after
        (restoring ++ (.started ["sleep", "9"] "" :: configuring)) ∧
      (∀ e ∈ restoring ++ configuring, ¬e.IsProgram) ∧
      Stack.failuresOf tries ≠ [] ∧
      (run stuckMachine stuckWords).1.stderr =
        "interrupted\n" ++ Text.ofLines ((Stack.failuresOf tries).map warning) ∧
      (run stuckMachine stuckWords).1.exitCode = 255 := by
  have hwords : Request.ofWords? stuckWords = some (.apply stuckSelection ["sleep", "9"]) := by
    decide +kernel
  have hstack : stuckSelection.stack stuckMachine = .ok stuckStack := by
    have hok : (stuckSelection.stack stuckMachine).isOk = true := by decide +kernel
    unfold stuckStack
    cases hs : stuckSelection.stack stuckMachine with
    | error f =>
      rw [hs] at hok
      cases hok
    | ok stack => rfl
  have hok : (stuckStack.configure (stuckMachine.bench, .empty)).1 = .ok () := by decide +kernel
  have hfails : (run stuckMachine stuckWords).1.stderr ≠ "interrupted\n" := by decide +kernel
  rcases hconfigured : stuckStack.configure (stuckMachine.bench, .empty) with ⟨result, b, l⟩
  rw [hconfigured] at hok
  obtain rfl : result = .ok () := hok
  obtain ⟨configuring, restoring, tries, -, failure?, -, hbench, hnone, -, hends, herrors,
    hkilled⟩ := apply_restores_always hwords (by simp) hstack hconfigured rfl
  have hcode := hkilled _ 15 rfl rfl rfl
  rw [hcode] at hends
  obtain rfl : failure? = none := by
    generalize Stack.failuresOf tries = failures at hends
    cases hends
    rfl
  have herrors : (run stuckMachine stuckWords).1.stderr =
      "interrupted\n" ++ Text.ofLines ((Stack.failuresOf tries).map warning) :=
    herrors.trans String.append_empty
  refine ⟨hwords, hstack, configuring, restoring, tries, hbench, hnone, fun hnil => ?_, herrors,
    hcode⟩
  rw [hnil] at herrors
  exact hfails (herrors.trans String.append_empty)

end CommandLine

end NicTuning
