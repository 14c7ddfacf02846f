import CoreFleet.Config.Basic
import CoreFleet.Proofs.Launch.Building

/-!
# The arguments of a configuration

The argument vector of a configuration is laid out in a fixed order : the program name, the settings
that have a value, and the further arguments (`Launch.toArgs_eq`). Of choices of a core set that are
made one after the other the last one counts, and nothing else is touched (`foldl_withCores`).
-/

namespace CoreFleet

namespace Launch

/-- A setting with its value, if it has one. -/
def Setting.words (s : Setting) (value : Option String) : List String :=
  match value with
  | some value => [s.flag, value]
  | none => []

namespace Builder

/-- The arguments that a call adds. -/
def Call.words : Call → List String
  | programName _ => []
  | coreMask text => Setting.coreMask.words (some text)
  | coreList text => Setting.coreList.words (some text)
  | memoryChannels n => Setting.memoryChannels.words (some (Numeral.text n))
  | mainLcore id => Setting.mainLcore.words (some (Numeral.text id))
  | arg raw => [raw]

theorem foldl_apply_words (b : Builder) (calls : List Call) :
    (calls.foldl apply b).args = b.args ++ calls.flatMap Call.words := by
  induction calls generalizing b with
  | nil => exact (List.append_nil _).symm
  | cons c calls ih =>
    have hc : (b.apply c).args = b.args ++ c.words := by
      cases c with
      | programName => exact (List.append_nil _).symm
      | _ => rfl
    rw [List.foldl_cons, ih, hc, List.flatMap_cons, List.append_assoc]

end Builder

end Launch

namespace Config

open CoreFleet.Launch (Setting Builder)

/-- The core options of a configuration : the mask, and then the list. -/
def Launch.coreWords (l : Launch) : List String :=
  Setting.coreMask.words l.coreMask ++ Setting.coreList.words l.coreList

/-- The option of a choice. -/
def CoreChoice.words : CoreChoice → List String
  | mask text => Setting.coreMask.words (some text)
  | list text => Setting.coreList.words (some text)

theorem Launch.toArgs_eq (l : Launch) : l.toArgs = l.programName ::
    (Setting.memoryChannels.words (l.memoryChannels.map Numeral.text) ++ l.coreWords ++
      Setting.mainLcore.words (l.mainLcore.map Numeral.text) ++ l.args) := by
  obtain ⟨name, channels, mask, list, main, args⟩ := l
  rw [toArgs, Builder.toArgs, Builder.ofCalls, Builder.foldl_apply_programName,
    Builder.foldl_apply_words]
  cases channels <;> cases mask <;> cases list <;> cases main <;>
    simp [calls, coreWords, Setting.words, Builder.Call.words, Builder.Call.programName?,
      List.filterMap_cons, List.flatMap_map, Function.comp_def]

variable {c : Config} {choice last : CoreChoice} {choices : List CoreChoice}

theorem withCores_withCores : (c.withCores choice).withCores last = c.withCores last := by
  cases choice <;> cases last <;> rfl

/-- Of several choices the last one counts. -/
theorem foldl_withCores (h : choices.getLast? = some last) :
    choices.foldl withCores c = c.withCores last := by
  obtain ⟨before, rfl⟩ := List.getLast?_eq_some_iff.1 h
  rw [List.foldl_append, List.foldl_cons, List.foldl_nil]
  clear h
  induction before generalizing c with
  | nil => rfl
  | cons choice before ih => rw [List.foldl_cons, ih, withCores_withCores]

/-- A choice leaves one core option, its own. -/
theorem coreWords_withCores : (c.withCores choice).launch.coreWords = choice.words := by
  cases choice with
  | mask text => exact List.append_nil _
  | list text => rfl

/-- A choice touches the core set and nothing else. -/
theorem withCores_restored : { c.withCores choice with launch := { (c.withCores choice).launch with
    coreMask := c.launch.coreMask, coreList := c.launch.coreList } } = c := by
  cases choice <;> rfl

end Config

end CoreFleet
