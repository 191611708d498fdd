import StaticConfig.Path

/-!
# Import specifiers

Which specifiers point into the project, and which files such a one may mean.
-/

namespace StaticConfig

/-- Relative and absolute specifiers point into the project; other ones name packages, which are
never loaded. -/
def isLocalSpecifier (specifier : String) : Bool :=
  ["./", "../", "/"].any fun start => start.toList.isPrefixOf specifier.toList

/-- The extensions that a specifier may leave out, in the order in which they are tried. -/
def sourceExtensions : List String := ["ts", "tsx", "mts", "cts", "js", "jsx", "mjs"]

/-- The specifier without query, fragment and trailing slashes. -/
def bareSpecifier (specifier : String) : String :=
  let cs := specifier.toList.takeWhile fun c => c != '?' && c != '#'
  String.ofList (cs.reverse.dropWhile (· == '/')).reverse

/-- Where a specifier points, seen from the file that it stands in. -/
def specifierBase (importer : Path) (specifier : String) : Path :=
  (importer.parent.join (.ofText (bareSpecifier specifier))).normalize

/-- The files that a specifier may mean, best first: the path itself, then sources of a script that
is named by its compiled form, or else the path with each extension and the index files of the
directory. -/
def candidatePaths (importer : Path) (specifier : String) : List Path :=
  let base := specifierBase importer specifier
  match base.extension? with
  | some extension =>
    if ["js", "jsx", "mjs"].contains extension then
      base :: ["ts", "tsx", "mts"].map base.withExtension
    else [base]
  | none =>
    base :: sourceExtensions.map base.withExtension ++
      sourceExtensions.map fun extension => base.child ("index." ++ extension)

end StaticConfig
