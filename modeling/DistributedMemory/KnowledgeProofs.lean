import Mathlib.Order.Closure
import Mathlib.Order.CompletePartialOrder

/-!
# Knowledge — what can be derived from what was seen

Rules of inference over any type of things that can be known: `rule premises c` says that
whoever knows all the premises knows `c`. What a set of observations gives away is its
closure under the rules.

* **`derive`** — the closure, as a closure operator.
* **`derive_subset`** — the closed-set method: what lies in a set that is closed under the
  rules and holds the observations is all there is to know.
-/

namespace Knowledge

variable {τ : Type} (rule : Set τ → τ → Prop)

/-- Nothing outside `S` follows from things in `S`. -/
def ClosedUnder (S : Set τ) : Prop := ∀ premises c, rule premises c → premises ⊆ S → c ∈ S

/-- Everything that follows from `K`. -/
def derive : ClosureOperator (Set τ) :=
  ClosureOperator.ofCompletePred (ClosedUnder rule) fun _ hT premises c hc hsub =>
    Set.mem_sInter.mpr fun S hS =>
      hT S hS premises c hc (hsub.trans (sInf_le hS))

/-- What is seen is known. -/
theorem subset_derive (K : Set τ) : K ⊆ derive rule K := (derive rule).le_closure K

/-- **The closed-set method.** -/
theorem derive_subset {K S : Set τ} (hK : K ⊆ S) (hS : ClosedUnder rule S) :
    derive rule K ⊆ S :=
  ClosureOperator.closure_min hK hS

end Knowledge
