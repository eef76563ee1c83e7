import DatasetPlan.Proofs.Compile
import DatasetPlan.Proofs.Pipeline.Lowering

namespace DatasetPlan.Plan

variable {hash : TextHash} {name description : String} {inputs : List String}
  {first rest steps : List Step} {plan front whole : Plan}

theorem steps_lower_of_assemble
    (h : assemble hash name description inputs steps = some plan) :
    plan.lower.steps = Step.lowerAll 0 (Reference.input 0) steps := by
  rw [lower, (assemble_eq_some h).1]

theorem steps_lower_append
    (hfront : assemble hash name description inputs first = some front)
    (hwhole : assemble hash name description inputs (first ++ rest) = some whole) :
    ∃ output, front.outputs = [output] ∧
      whole.lower.steps =
        front.lower.steps ++ Step.lowerAll first.length output.data rest := by
  obtain ⟨-, last, hlast, houtputs⟩ := assemble_eq_some hfront
  refine ⟨_, houtputs, ?_⟩
  rw [steps_lower_of_assemble hwhole, steps_lower_of_assemble hfront, Step.lowerAll_append,
    Step.source_length hlast]
  simp only [Nat.zero_add]

/-- Wherever steps are cut in two, both ways of referring to what the first part gives agree. -/
theorem lower_assemble_append (hash : TextHash) (name description : String)
    (inputs : List String) (hfirst : first ≠ []) (hrest : rest ≠ []) :
    ∃ front whole, assemble hash name description inputs first = some front ∧
      assemble hash name description inputs (first ++ rest) = some whole ∧
      front.lower.steps <+: whole.lower.steps ∧
      whole.lower.steps.length = first.length + rest.length ∧
      ∃ step lowered output, rest.head? = some step ∧
        whole.lower.steps[first.length]? = some lowered ∧ front.outputs.head? = some output ∧
        (step.ownArguments.isEmpty = true →
          lowered.arguments.entries = [("inputs", output.data)]) := by
  obtain ⟨front, hfront⟩ := exists_assemble hash name description inputs hfirst
  obtain ⟨whole, hwhole⟩ := exists_assemble hash name description inputs
    (List.append_ne_nil_of_left_ne_nil hfirst rest)
  obtain ⟨output, houtputs, hsteps⟩ := steps_lower_append hfront hwhole
  have hlength : front.lower.steps.length = first.length := by
    rw [steps_lower_of_assemble hfront, Step.length_lowerAll]
  obtain ⟨step, others, rfl⟩ := List.exists_cons_of_ne_nil hrest
  refine ⟨front, whole, hfront, hwhole, ⟨_, hsteps.symm⟩, ?length, step, step.lower output.data,
    output, rfl, ?lowered, by rw [houtputs, List.head?_cons], ?arguments⟩
  case length =>
    rw [hsteps, List.length_append, hlength, Step.length_lowerAll]
  case lowered =>
    rw [hsteps, ← hlength, List.getElem?_append_right (Nat.le_refl _), Nat.sub_self]
    rfl
  case arguments =>
    intro hown
    rw [Step.arguments_lower_of_isEmpty hown]
    rfl

def silentCall : Step :=
  .call { Catalog.join.call with outputs := [], arguments := .ofList [("left", "inputs.0")] }

theorem lower_assemble_append_silent :
    ∃ whole, assemble (fun _ => "") "cut" "" ["inputs"]
        ([silentCall] ++ [.removeColumns "0" [1], silentCall]) = some whole ∧
      whole.lower.steps.length = 3 ∧
      ∃ lowered, whole.lower.steps[1]? = some lowered ∧
        lowered.arguments.entries = [("inputs", "steps.0.produce")] := by
  obtain ⟨front, whole, hfront, hwhole, -, hlength, step, lowered, output, hstep, hlowered,
    houtput, harguments⟩ := lower_assemble_append (fun _ => "") "cut" "" ["inputs"]
      (List.cons_ne_nil silentCall []) (List.cons_ne_nil (.removeColumns "0" [1]) [silentCall])
  obtain rfl := Option.some.inj hfront
  obtain rfl := Option.some.inj hstep
  obtain rfl := Option.some.inj houtput
  exact ⟨whole, hwhole, hlength, lowered, hlowered, harguments rfl⟩

end DatasetPlan.Plan
