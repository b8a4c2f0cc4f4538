import PhasedBuild.Lifecycle.Standard
import PhasedBuild.Step.Catalog

/-!
# The standard plugins

The descriptors of the plugins that the standard lifecycles and packagings bind, and of some that
are commonly asked for by name.
-/

namespace PhasedBuild.Standard

/-- The text of an expression that looks a property up. -/
def lookup (property : String) : String :=
  "$\x7b" ++ property ++ "\x7d"

/-- A parameter that is looked up in a property and may have a default. -/
def parameter (name property : String) (defaultValue : Option String := none) : Parameter :=
  { name, expression := some (lookup property), defaultValue }

/-- A goal with the phase that it belongs to. -/
def goal (name phase : String) : StepDescriptor :=
  { plugin := ⟨"", "", none⟩, goal := name, phase := some phase }

/-- A plugin of the standard group. -/
def plugin (artifact version shorthand : String) (goals : List StepDescriptor)
    (overlays : List Overlay := []) : PluginDescriptor :=
  { coordinate := ⟨pluginGroup, artifact, some version⟩
    shorthand := some shorthand
    goals, overlays }

/-- Where the results of a compilation go. -/
def outputDirectory : Parameter :=
  parameter "outputDirectory" "project.build.outputDirectory" (some "target/classes")

/-- The overlay under which the sources of a unit are packaged. -/
def sourceOverlay : Overlay where
  id := "source"
  phases := [{
    id := "generate-sources"
    configuration := some {
      name := ConfigNode.rootName
      children := [{ name := "attach", value := some "false" }] } }]

/-- All standard plugins. -/
def plugins : List PluginDescriptor := [
  plugin "maven-clean-plugin" "3.2.0" "clean" [
    { goal "clean" "clean" with
      parameters := [
        parameter "skip" "maven.clean.skip",
        parameter "failOnError" "maven.clean.failOnError" (some "true")] }],
  plugin "maven-resources-plugin" "3.3.1" "resources" [
    { goal "resources" "process-resources" with parameters := [outputDirectory] },
    goal "testResources" "process-test-resources"],
  plugin "maven-compiler-plugin" "3.14.0" "compiler" [
    { goal "compile" "compile" with
      requiresResolution := some .compile
      parameters := [
        parameter "source" "maven.compiler.source" (some "1.8"),
        parameter "target" "maven.compiler.target" (some "1.8"),
        outputDirectory] },
    { goal "testCompile" "test-compile" with
      requiresResolution := some .test
      parameters := [
        parameter "skip" "maven.test.skip",
        parameter "testOutputDirectory" "project.build.testOutputDirectory"
          (some "target/test-classes")] }],
  plugin "maven-surefire-plugin" "3.5.3" "surefire" [
    { goal "test" "test" with
      requiresResolution := some .test
      parameters := [
        parameter "skipTests" "skipTests",
        parameter "testFailureIgnore" "maven.test.failure.ignore" (some "false")] }],
  plugin "maven-jar-plugin" "3.4.2" "jar" [
    { goal "jar" "package" with requiresResolution := some .runtime },
    { goal "test-jar" "package" with requiresResolution := some .test }],
  plugin "maven-source-plugin" "3.3.1" "source"
    [{ goal "jar" "package" with fork := some (.phase "generate-sources" (some "source")) }]
    [sourceOverlay],
  plugin "maven-install-plugin" "3.1.4" "install" [
    { goal "install" "install" with parameters := [parameter "skip" "maven.install.skip"] }],
  plugin "maven-deploy-plugin" "3.1.4" "deploy" [
    { goal "deploy" "deploy" with onlineRequired := true }],
  plugin "maven-site-plugin" "3.12.1" "site" [
    { goal "site" "site" with requiresResolution := some .test },
    { goal "deploy" "site-deploy" with onlineRequired := true }],
  plugin "maven-help-plugin" "3.5.1" "help" [
    { plugin := ⟨"", "", none⟩, goal := "help", projectRequired := false }]]

/-- The catalog of the standard plugins. -/
def catalog : Catalog :=
  Catalog.registerAll {} plugins

end PhasedBuild.Standard
