import RtiAssembly.Problem.Basic

/-!
# Gauss-Newton blocks

The Hessian of the least-squares objective consists of the blocks
`Q1 = Fx'SFx + λI`, `R1 = Fu'SFu + λI`, `S1 = Fx'SFu` and
`QN1 = FxN'SN FxN + λI`; the gradient uses `Q2 = Fx'S`, `R2 = Fu'S` and
`QN2 = FxN'SN`.  A block whose inputs are all known is evaluated when the
program is generated.
-/

namespace RtiAssembly

/-- The blocks that are known when the program is generated. -/
structure KnownBlocks (α : Type) where
  /-- `Q1` and `Q2`. -/
  states : Option (Matrix α × Matrix α)
  /-- `R1` and `R2`. -/
  controls : Option (Matrix α × Matrix α)
  /-- `S1`. -/
  cross : Option (Matrix α)
  /-- `QN1` and `QN2`. -/
  terminal : Option (Matrix α × Matrix α)

namespace KnownBlocks

variable {α : Type} [Scalar α]

/-- The damped Hessian block and the gradient block of a residual with
derivative `jacobian` and weighting `weight`. -/
def pair (damping : α) (jacobian weight : Matrix α) : Matrix α × Matrix α :=
  let gradient := jacobian.transpose.mul weight
  ((gradient.mul jacobian).damped damping, gradient)

/-- The blocks of a problem whose inputs are all known.  Without a cross term
its block is zero. -/
def ofProblem (problem : Problem α) : KnownBlocks α :=
  let damping := problem.flags.levenbergMarquardt
  { states := do
      let weight ← problem.weight
      let jacX ← problem.jacX
      pure (pair damping jacX weight)
    controls := do
      let weight ← problem.weight
      let jacU ← problem.jacU
      pure (pair damping jacU weight)
    cross :=
      if problem.crossTerm then do
        let weight ← problem.weight
        let jacX ← problem.jacX
        let jacU ← problem.jacU
        pure ((jacX.transpose.mul weight).mul jacU)
      else
        some (Matrix.zeros problem.dims.nx problem.dims.nu)
    terminal := do
      let weight ← problem.terminalWeight
      let jacXEnd ← problem.jacXEnd
      pure (pair damping jacXEnd weight) }

end KnownBlocks

end RtiAssembly
