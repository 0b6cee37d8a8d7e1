import Compendium.Command.Build
import Compendium.Command.Convert
import Compendium.Command.Inspect

/-! The paths that a command looks at. What lies at other paths makes no difference to it. -/

set_option autoImplicit false
namespace Compendium

/-- The files that a build reads, as far as its manifest tells. -/
def Manifest.sourceFiles (manifest : Manifest) : List Path :=
  let language := manifest.build.language
  [Source.abilityStrings language, Source.generalStrings language, Source.heroLore language, Source.itemScripts,
    Source.abilityScripts, Source.heroScripts, Source.neutralItems].map manifest.sources.dataDirectory.below
    ++ manifest.sources.heroOverrides.toList

namespace Command

/-- Files that are read or written, when the files of `tree` are known already. -/
def files (tree : FileTree) : Command → List Path
  | .build request =>
    match request.plan tree with
    | .ok (manifest, jobs) => request.manifest :: manifest.sourceFiles ++ jobs.map manifest.outputOf
    | .error _ => [request.manifest]
  | .convert request => request.source :: request.destination.toList
  | .inspect request => [request.strings, request.scripts]

/-- Directories that are read with all that lies in them. -/
def directories (tree : FileTree) : Command → List Path
  | .build request =>
    match request.plan tree with
    | .ok (manifest, _) => [manifest.sources.heroDataDirectory]
    | .error _ => []
  | _ => []

end Command
end Compendium
