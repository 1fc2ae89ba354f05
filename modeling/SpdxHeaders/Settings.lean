import SpdxHeaders.Text.Basic

/-!
# Settings

What a project can choose about its conversions, with the built-in choices as defaults.
-/

namespace SpdxHeaders

/-- The settings of a project. -/
structure Settings where
  /-- The directories that are not walked. -/
  ignoredDirs : List Text := []
  /-- The holders whose statements are kept. -/
  keep : List Text := []
  /-- The path fragments that mark vendored style sheets and sources. -/
  vendorMarkers : List Text := ["/lib/Vendor/", "/vendor/", "/tests/stubs/"]
  /-- The path fragments that mark vendored scripts and markup. -/
  scriptVendorMarkers : List Text := ["/vendor/"]
  /-- The path endings of files without a header. -/
  ignorableSuffixes : List Text :=
    ["composer.json", "composer.lock", ".md", ".png", ".svg", ".xml", ".json"]
  /-- The path fragments of files that are not reported at all. -/
  exemptions : List Text :=
    ["/tests/integration/vendor/", "/tests/integration/phpserver.log",
     "/tests/integration/phpserver_fed.log"]
  /-- The name of the author list under the root. -/
  authorsFile : Text := "AUTHORS.md"
  deriving DecidableEq, Repr

end SpdxHeaders
