import WasmTyping.Command.Run

/-!
# What a run comes to

A run is the execution on a simulated host. It is worked out here once: what is read, when a run ends
without output, and what has been written where.
-/

namespace WasmTyping.Command

theorem Disk.write_write (disk : Disk) (place : Place) (first second : String) :
    (disk.write place first).write place second = disk.write place second := by
  simp [write, List.filter_filter]

def Settings.readText (s : Settings) (stdin : String) (disk : Disk) : Except Failure String :=
  match s.inputPath? with
  | none => .ok stdin
  | some path => (disk.read path).mapError fun e => .unreadable path e.message

theorem Machine.bind_apply {α β : Type} (c : StateM Machine α) (f : α → StateM Machine β)
    (machine : Machine) : (c >>= f) machine = f (c machine).1 (c machine).2 := rfl

theorem Host.create_of_error {path : String} {machine : Machine} {e : DiskError}
    (h : machine.disk.creationPlace path = .error e) :
    Host.simulated.create path machine = (.error e.message, machine) := by
  simp only [simulated, h]

theorem Host.create_of_ok {path : String} {machine : Machine} {place : Place}
    (h : machine.disk.creationPlace path = .ok place) :
    Host.simulated.create path machine =
      (.ok fun content machine =>
          ((), { machine with disk := machine.disk.write place content }),
        { machine with disk := machine.disk.write place "" }) := by
  simp only [simulated, h]

theorem Settings.readFrom_simulated (s : Settings) (machine : Machine) :
    s.readFrom Host.simulated machine = (s.readText machine.stdin machine.disk, machine) := by
  rw [readFrom, readText]
  cases s.inputPath? with
  | none => rfl
  | some path =>
    dsimp only
    rw [Machine.bind_apply]
    change (((machine.disk.read path).mapError _).mapError _, machine) = _
    cases machine.disk.read path <;> rfl

namespace Invocation

section Execute

variable {i : Invocation} {machine : Machine} {failure : Failure} {loaded : Loaded} {path : String}

theorem execute_of_unloaded
    (h : (i.settings.readText machine.stdin machine.disk).bind i.load = .error failure) :
    i.execute Host.simulated machine = (some failure, machine) := by
  rw [execute, Machine.bind_apply, Settings.readFrom_simulated, h]
  rfl

theorem execute_of_loaded
    (h : (i.settings.readText machine.stdin machine.disk).bind i.load = .ok loaded) :
    i.execute Host.simulated machine = i.deliver Host.simulated loaded machine := by
  rw [execute, Machine.bind_apply, Settings.readFrom_simulated, h]

theorem deliver_printed (htarget : i.target? = none) :
    i.deliver Host.simulated loaded machine =
      ((i.perform loaded).2, { machine with stdout := machine.stdout ++ (i.perform loaded).1 }) := by
  rw [deliver, htarget]
  rfl

theorem deliver_uncreatable (htarget : i.target? = some path) {e : DiskError}
    (hcreate : machine.disk.creationPlace path = .error e) :
    i.deliver Host.simulated loaded machine = (some (.uncreatable path e.message), machine) := by
  rw [deliver, htarget]
  dsimp only
  rw [Machine.bind_apply, Host.create_of_error hcreate]
  rfl

theorem deliver_created (htarget : i.target? = some path) {place : Place}
    (hcreate : machine.disk.creationPlace path = .ok place) :
    i.deliver Host.simulated loaded machine = ((i.perform loaded).2,
      { machine with disk := machine.disk.write place (i.perform loaded).1 }) := by
  rw [← machine.disk.write_write place "" (i.perform loaded).1, deliver, htarget]
  dsimp only
  rw [Machine.bind_apply, Host.create_of_ok hcreate]
  rfl

end Execute

theorem execute_stderr (i : Invocation) (machine : Machine) :
    (i.execute Host.simulated machine).2.stderr = machine.stderr := by
  cases h : (i.settings.readText machine.stdin machine.disk).bind i.load with
  | error failure => rw [execute_of_unloaded h]
  | ok loaded =>
    rw [execute_of_loaded h]
    cases htarget : i.target? with
    | none => rw [deliver_printed htarget]
    | some path =>
      cases hcreate : machine.disk.creationPlace path with
      | error e => rw [deliver_uncreatable htarget hcreate]
      | ok place => rw [deliver_created htarget hcreate]

section Run

variable {i : Invocation} {stdin text path : String} {disk : Disk} {loaded : Loaded}
  (hread : i.settings.readText stdin disk = .ok text)
include hread

variable (hload : i.load text = .ok loaded)
include hload

theorem run_of_printed (htarget : i.target? = none) :
    i.run stdin disk =
      { disk, stdout := (i.perform loaded).1, failure := (i.perform loaded).2 } := by
  rw [run, execute_of_loaded (by rw [hread]; exact hload), deliver_printed htarget]
  simp only [String.empty_append]

theorem run_of_created (htarget : i.target? = some path) {place : Place}
    (hcreate : disk.creationPlace path = .ok place) :
    i.run stdin disk =
      { disk := disk.write place (i.perform loaded).1, failure := (i.perform loaded).2 } := by
  rw [run, execute_of_loaded (by rw [hread]; exact hload), deliver_created htarget hcreate]

end Run

end Invocation

/-- The whole command leaves the files and the output of its invocation. It reports the failure, if
there is one, and its exit code says whether there is. -/
theorem run_of_invocation {arguments : List String} {i : Invocation}
    (h : readInvocation arguments = .ok i) (stdin : String) (disk : Disk) :
    let result := i.run stdin disk
    run arguments stdin disk =
      { exit := if result.failure = none then 0 else 1, stdout := result.stdout,
        stderr := (result.failure.map Failure.report).getD "", disk := result.disk } := by
  have hstderr := i.execute_stderr { stdin, disk }
  rw [run, execute, h]
  dsimp only [Invocation.run]
  rw [Machine.bind_apply]
  generalize i.execute Host.simulated { stdin, disk } = left at hstderr
  obtain ⟨failure, stdin', disk', stdout, stderr⟩ := left
  obtain rfl : stderr = "" := hstderr
  cases failure with
  | none => rfl
  | some failure =>
    dsimp only
    rw [Machine.bind_apply]
    change (⟨1, stdout, "" ++ failure.report, disk'⟩ : Outcome) = _
    rw [String.empty_append]
    rfl

end WasmTyping.Command
