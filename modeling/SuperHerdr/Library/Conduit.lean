import Mathlib.Data.List.Infix

/-!
# What comes out of a conduit

A conduit is a row of stages between a source and what has come out. A stage holds what came in and
did not get on yet, and is cut once nothing more gets from it into the one before it. What is lost
is lost at a stage that is cut by then, and so `Delivers` holds all along: up to some stage that is
cut, everything of the source that got so far is there, in order. In particular what has come out is
the source as far as it got (`Delivers.isPrefix`).
-/

namespace Conduit

variable {β : Type*}

/-- Stages, from what has come out back to the source: whether each is cut, and what it holds. -/
def Delivers (out : List β) : List (Prop × List β) → List β → Prop
  | [], source => out = source
  | (cut, held) :: stages, source => cut ∧ out <+: source ∨ Delivers (out ++ held) stages source

namespace Delivers

variable {out held held' more source source' : List β} {cut cut' cut'' : Prop}
  {stages stages' : List (Prop × List β)}

/-- What has come out is what the source began with. -/
theorem isPrefix (h : Delivers out stages source) : out <+: source := by
  induction stages generalizing out with
  | nil =>
    obtain rfl : out = source := h
    exact List.prefix_rfl
  | cons stage stages ih =>
    rcases h with ⟨-, hout⟩ | h
    · exact hout
    · exact (List.prefix_append _ _).trans (ih h)

theorem head (h : Delivers out ((cut, held) :: stages) source) :
    cut ∧ out <+: source ∨ out ++ held <+: source :=
  h.imp_right isPrefix

/-- Something happens at stages further back. -/
theorem under (hcut : cut → cut') (hsource : source <+: source')
    (hstages : ∀ out, Delivers out stages source → Delivers out stages' source')
    (h : Delivers out ((cut, held) :: stages) source) :
    Delivers out ((cut', held) :: stages') source' :=
  h.imp (fun hleft => ⟨hcut hleft.1, hleft.2.trans hsource⟩) (hstages _)

/-- Stages are cut. -/
theorem weaken (hstages : List.Forall₂ (fun old new => (old.1 → new.1) ∧ old.2 = new.2) stages stages')
    (h : Delivers out stages source) : Delivers out stages' source := by
  induction hstages generalizing out with
  | nil => exact h
  | @cons old new _ _ hstage _ ih =>
    obtain ⟨cut, held⟩ := old
    obtain ⟨cut', held'⟩ := new
    obtain ⟨hcut, rfl⟩ := hstage
    exact under hcut List.prefix_rfl (fun _ => ih) h

/-- Something gets on from a stage that is not cut. -/
theorem pass (hcut : ¬cut') (h : Delivers out ((cut, held) :: (cut', more ++ held') :: stages) source) :
    Delivers out ((cut, held ++ more) :: (cut', held') :: stages) source := by
  rcases h with hleft | ⟨htrue, -⟩ | h
  · exact .inl hleft
  · exact absurd htrue hcut
  · exact .inr (.inr (by simpa only [List.append_assoc] using h))

/-- Something comes out of the first stage, which is not cut. -/
theorem deliver (hcut : ¬cut) (h : Delivers out ((cut, more ++ held) :: stages) source) :
    Delivers (out ++ more) ((cut, held) :: stages) source := by
  rcases h with ⟨htrue, -⟩ | h
  · exact absurd htrue hcut
  · exact .inr (by simpa only [List.append_assoc] using h)

/-- Something is lost behind a stage that is cut by now. -/
theorem lose (hcut : cut) (h : out <+: source) : Delivers out ((cut, held) :: stages) source :=
  .inl ⟨hcut, h⟩

/-- What a stage holds is cut short, and nothing more gets into it. -/
theorem truncate (hheld : held' <+: held) (hcut : cut')
    (h : Delivers out ((cut, held) :: stages) source) :
    Delivers out ((cut, held') :: (cut', more) :: stages') source :=
  h.head.imp_right fun hout =>
    .inl ⟨hcut, ((List.prefix_append_right_inj out).mpr hheld).trans hout⟩

/-- The source goes on. -/
theorem push (hcut : ¬cut') (h : Delivers out [(cut, held), (cut', [])] source) :
    Delivers out [(cut, held ++ more), (cut'', [])] (source ++ more) := by
  rcases h with ⟨htrue, hout⟩ | ⟨htrue, -⟩ | h
  · exact .inl ⟨htrue, hout.trans (List.prefix_append _ _)⟩
  · exact absurd htrue hcut
  · obtain rfl : out ++ held ++ [] = source := h
    exact .inr (.inr (by simp [Delivers]))

/-- The source goes on, and nothing of that gets into a stage. -/
theorem stop (hcut : cut) (hsource : source <+: source') (h : Delivers out stages source) :
    Delivers out [(cut, [])] source' :=
  .inl ⟨hcut, h.isPrefix.trans hsource⟩

end Delivers

end Conduit
