import AlignPlan.Proofs.Batch.Plan

/-! What a run over the traces of a document leaves on a file tree. -/
namespace AlignPlan

namespace Batch

variable {config : Config} {d : Document} {p : Progress} {t t₁ : FileTree}

end Batch

namespace Sample

end Sample

namespace Batch

end Batch

end AlignPlan
