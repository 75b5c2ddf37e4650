import RtiAssembly.Emission.Header
import RtiAssembly.Emission.Source

/-!
# Generated files

A program becomes a header and a source file that includes it.
-/

namespace RtiAssembly

/-- A header and the source file that includes it. -/
structure GeneratedFiles where
  headerName : String
  header : String
  source : String
  deriving DecidableEq, Repr

/-- Header and source one after the other. -/
def GeneratedFiles.combined (files : GeneratedFiles) : String :=
  files.header ++ "\n" ++ files.source

/-- The generated files of a program, stamped with a provenance. -/
def Program.emit {α : Type} [Scalar α] (program : Program α) (provenance : String) :
    GeneratedFiles :=
  let headerName := program.moduleName ++ "_solver.h"
  { headerName := headerName
    header := Emission.header program provenance
    source := Emission.source program headerName provenance }

end RtiAssembly
