/-
What a resume makes of a chain that tells the truth.

The chain lists what nobody has attested, page by page, and the walk over the pages is the
one of `Node/MissingIndices`.  So a resume that cannot activate the file yet replicates
exactly the chunks that are missing, and then the manifest.
-/
import Snip.Proofs.IngestProgress
import Snip.Proofs.IngestResume

namespace Snip

open Dialogue

namespace Ingest

section

variable {σ : Type} [CryptoLib] {c : Ingest σ}

/-! ### The walk -/

variable [Blake3] [AssignmentScore] {file : ReproducedFile}

end

end Ingest

/-! #### One chunk of two is missing -/

section

variable [Blake3]

end

end Snip
