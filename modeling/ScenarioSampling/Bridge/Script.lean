import ScenarioSampling.Bridge.World

/-!
# Scripts for draws

Puts actions before given draws of a run, counted from zero, into the form of a script.
-/

namespace ScenarioSampling

/-- The turns for draws in increasing order, when draw number `base` is the next one. -/
def drawTurns (base : Nat) : List (Nat × List Action) → List Turn
  | [] => []
  | (draw, actions) :: rest => ⟨.draw, draw - base, actions⟩ :: drawTurns (draw + 1) rest

/-- Puts the actions for one draw together, keeping their order. -/
def joinDraws : List (Nat × List Action) → List (Nat × List Action)
  | [] => []
  | (draw, actions) :: rest =>
    match joinDraws rest with
    | (next, more) :: others =>
      if next = draw then (draw, actions ++ more) :: others
      else (draw, actions) :: (next, more) :: others
    | [] => [(draw, actions)]

/-- The script that performs each group of actions just before its draw. -/
def drawScript (hooks : List (Nat × List Action)) : List Turn :=
  drawTurns 0 (joinDraws (hooks.mergeSort fun a b => a.1 ≤ b.1))

end ScenarioSampling
