import SuperHerdr.Library.CommandLine
import SuperHerdr.Plugins.Fleet

/-!
# The commands a plan prints

A plan's steps each come with the command that a person would run. It is put together from what a
host reported, which is bounded in its length and freed of control characters but put into the line
without quotes. So the shell reads the command as it is meant exactly if the plugin's source and its
reference have nothing in them that the shell acts on (`install_commands_are_read_iff`).
-/

namespace SuperHerdr

namespace Plugins

open Std CommandLine

/-- What a step's command is meant to be: the program and its arguments. -/
def PlanStep.words (step : PlanStep) : List String :=
  ["herdr", "plugin", "install", step.source.installArgument, "--ref", step.to, "-y"]

/-- The shell reads a step's command as what it is meant to be, and as nothing else. -/
def PlanStep.IsRead (step : PlanStep) : Prop :=
  commandWords step.command.toList = some (step.words.map String.toList)

instance (step : PlanStep) : Decidable step.IsRead :=
  inferInstanceAs (Decidable (commandWords step.command.toList = _))

theorem toList_command {target : TargetSession} {installed : List InstalledPlugin}
    {locked : LockedPlugin} {step : PlanStep}
    (h : Inventory.planStep target installed locked = some step) :
    step.command.toList = [' '].intercalate (step.words.map String.toList) := by
  rw [Inventory.planStep] at h
  split at h
  · cases h
  · cases h
    simp [PlanStep.words, List.intercalate, toString]

/-- **A step's command is read as it is meant exactly if** the source's install argument and the
reference are words that the shell reads as they are written. -/
theorem install_commands_are_read_iff (inventory : Inventory) (lockfile : Lockfile)
    (targets : List TargetSession) :
    ∀ step ∈ inventory.plan lockfile targets,
      step.IsRead ↔ Plain step.source.installArgument.toList ∧ Plain step.to.toList := by
  intro step hstep
  obtain ⟨target, -, installed, -, locked, -, hplan⟩ := Inventory.mem_plan.mp hstep
  have hbare := commandWords_bare_iff
    (["plugin", "install", step.source.installArgument, "--ref", step.to, "-y"].map String.toList)
    (by decide : Word.isTaken ⟨"herdr".toList, none⟩ = false)
  have hfixed : ∀ word ∈ ["herdr", "plugin", "install", "--ref", "-y"], Plain word.toList := by
    decide
  rw [PlanStep.IsRead, toList_command hplan]
  refine hbare.trans ⟨fun h => ⟨h _ (by simp), h _ (by simp)⟩, ?_⟩
  rintro ⟨hargument, hreference⟩ word hword
  simp only [List.map_cons, List.map_nil, List.mem_cons, List.not_mem_nil, or_false] at hword
  rcases hword with rfl | rfl | rfl | rfl | rfl | rfl | rfl
  · exact hfixed "herdr" (by decide)
  · exact hfixed "plugin" (by decide)
  · exact hfixed "install" (by decide)
  · exact hargument
  · exact hfixed "--ref" (by decide)
  · exact hreference
  · exact hfixed "-y" (by decide)

def laptop : TargetSession := ⟨"laptop", "default"⟩

def box : TargetSession := ⟨"box", "default"⟩

/-- A host's answer that names one plugin, of that owner. -/
def reportedFrom (owner : String) : PluginList where
  kind := "plugin_list"
  plugins := [⟨"review", "review", "1.0", true,
    some ⟨some "github", some owner, some "review", none, some "v1", some "a1"⟩, []⟩]

/-- Two hosts, of which one has that plugin and one has none. -/
def twoHosts (installed : List InstalledPlugin) : Inventory :=
  ⟨((∅ : ExtTreeMap TargetSession (List InstalledPlugin)).insert laptop []).insert box installed, ∅⟩

/-- What one of them has, for the other. -/
def copied (installed : List InstalledPlugin) : List PlanStep :=
  (((twoHosts installed).lockfile box).map fun lockfile =>
    (twoHosts installed).plan lockfile [laptop]).getD []

theorem an_ordinary_owner_is_read :
    ∃ installed, parseInstalled (some (reportedFrom "acme")) = .ok installed ∧
      ∃ step ∈ copied installed, step.IsRead := by
  refine ⟨(reportedFrom "acme").plugins.map ListedPlugin.installed, rfl,
    ⟨laptop, ⟨"github", "acme", "review", none⟩, .install, none, "a1",
      "herdr plugin install acme/review --ref a1 -y"⟩, by decide +kernel, ?_⟩
  exact (install_commands_are_read_iff
    (twoHosts ((reportedFrom "acme").plugins.map ListedPlugin.installed))
    ⟨[⟨⟨"github", "acme", "review", none⟩, "a1", "1.0"⟩]⟩ [laptop] _ (by decide +kernel)).mpr
    (by decide)

/-- An owner with a semicolon in it ends the command that a person runs for the other host, and
begins another. -/
theorem an_owner_with_a_semicolon_is_not_read :
    ∃ installed, parseInstalled (some (reportedFrom "x; touch /tmp/pwned; true acme")) =
        .ok installed ∧
      ∃ step ∈ copied installed, ¬step.IsRead := by
  refine ⟨(reportedFrom "x; touch /tmp/pwned; true acme").plugins.map ListedPlugin.installed, rfl,
    ⟨laptop, ⟨"github", "x; touch /tmp/pwned; true acme", "review", none⟩, .install, none, "a1",
      "herdr plugin install x; touch /tmp/pwned; true acme/review --ref a1 -y"⟩, ?_, ?_⟩
  · decide +kernel
  · decide +kernel

end Plugins

end SuperHerdr
