import WasmTyping.Proofs.Execution
import WasmTyping.Proofs.Traces

/-!
# The subcommands agree

A module is checked in three ways: as a whole, by a run of `validate` and by a run of `dump`. All three
find the same error or none, and the two runs report it in the same words. What `dump` has written by
then is the trace up to the error.
-/

namespace WasmTyping

namespace Context

end Context

namespace Command

/-- All that a run has written is the text, to the output that is asked for. -/
def Invocation.Result.Wrote (result : Invocation.Result) (disk : Disk) (text : String) :
    Option String → Prop
  | none => result.stdout = text ∧ result.disk = disk
  | some path => result.stdout = "" ∧
      ∃ place, disk.creationPlace path = .ok place ∧ result.disk = disk.write place text

namespace Invocation

variable {settings : Settings} {stdin text : String} {disk : Disk} {m : Module} {e : TypingError}
  {entries : List Entry}

theorem load_of_structure_ok (subcommand : Subcommand) (hparse : Module.parse? text = some m)
    (hstructure : Context.checkStructure ⟨m, settings.featureSet⟩ = .ok entries) :
    load ⟨subcommand, settings⟩ text = .ok ⟨⟨m, settings.featureSet⟩, entries⟩ := by
  simp only [load, hparse, hstructure]

theorem run_dump_of_load {loaded : Loaded} (hread : settings.readText stdin disk = .ok text)
    (hload : load ⟨.dump, settings⟩ text = .ok loaded)
    (hcreate : ∀ path, settings.output = some path → ∃ place, disk.creationPlace path = .ok place) :
    (run ⟨.dump, settings⟩ stdin disk).failure = (perform ⟨.dump, settings⟩ loaded).2 ∧
      (run ⟨.dump, settings⟩ stdin disk).Wrote disk (perform ⟨.dump, settings⟩ loaded).1
        settings.output := by
  cases houtput : settings.output with
  | none =>
    rw [run_of_printed hread hload houtput]
    exact ⟨rfl, rfl, rfl⟩
  | some path =>
    obtain ⟨place, hplace⟩ := hcreate path houtput
    rw [run_of_created hread hload houtput hplace]
    exact ⟨rfl, rfl, place, hplace, rfl⟩

theorem wrote_of_load {ctx : Context} (hread : settings.readText stdin disk = .ok text)
    (hload : load ⟨.dump, settings⟩ text = .ok ⟨ctx, entries⟩)
    (hcreate : ∀ path, settings.output = some path → ∃ place, disk.creationPlace path = .ok place) :
    (run ⟨.dump, settings⟩ stdin disk).Wrote disk
      (Trace.text (style ⟨.dump, settings⟩) (Trace.functions ctx {} entries).1) settings.output := by
  have hperform : (perform ⟨.dump, settings⟩ ⟨ctx, entries⟩).1 =
      Trace.text (style ⟨.dump, settings⟩) (Trace.functions ctx {} entries).1 := by
    simp only [perform]
    cases (Trace.functions ctx {} entries).2 <;> rfl
  rw [← hperform]
  exact (run_dump_of_load hread hload hcreate).2

end Invocation

end Command

end WasmTyping
