import PhasedBuild.Lifecycle

/-!
# The standard lifecycles

Three lifecycles are always known: `clean` removes the results of earlier builds, `default` builds,
tests and delivers a unit, and `site` produces its documentation.
-/

namespace PhasedBuild.Standard

/-- The group of the standard plugins. -/
def pluginGroup : String := "org.apache.maven.plugins"

/-- The written form of a goal of a standard plugin. -/
def binding (artifact version goal : String) : String :=
  String.intercalate ":" [pluginGroup, artifact, version, goal]

/-- A link to a phase of the same unit that must be complete before. -/
def follows (phase : String) : Link := ⟨.after, .phase phase⟩

/-- A link to a phase of the units that a scope of dependencies leads to. -/
def followsDependencies (scope phase : String) : Link := ⟨.after, .dependencies scope phase⟩

/-- The lifecycle that removes the results of earlier builds. -/
def clean : Lifecycle where
  id := "clean"
  phases := [{ name := "clean", bindings := [binding "maven-clean-plugin" "3.2.0" "clean"] }]
  aliases := [⟨"pre-clean", "before:clean"⟩, ⟨"post-clean", "after:clean"⟩]

/-- The phases that test a unit on its own. -/
def unitTest : Phase where
  name := "unit-test"
  phases := [
    { name := "test-sources" },
    { name := "test-resources" },
    { name := "test-compile"
      links := [follows "test-sources", follows "ready", followsDependencies "test-only" "ready"] },
    { name := "test"
      links := [follows "test-compile", follows "test-resources",
        followsDependencies "test" "ready"] }]

/-- The phases that produce the package of a unit. -/
def build : Phase where
  name := "build"
  phases := [
    { name := "initialize", phases := [{ name := "validate" }] },
    { name := "sources", links := [follows "initialize"] },
    { name := "resources", links := [follows "initialize"] },
    { name := "compile", links := [follows "sources", followsDependencies "compile" "ready"] },
    { name := "ready", links := [follows "compile", follows "resources"] },
    unitTest,
    { name := "package", links := [follows "ready", followsDependencies "runtime" "package"] }]

/-- The lifecycle that builds, tests and delivers a unit. -/
def default : Lifecycle where
  id := "default"
  phases := [
    { name := "all"
      links := [⟨.after, .children "all"⟩]
      phases := [
        build,
        { name := "verify"
          phases := [{ name := "integration-test", links := [follows "package"] }] },
        { name := "install", links := [follows "verify"] },
        { name := "deploy", links := [follows "install"] }] }]
  aliases := [
    ⟨"generate-sources", "sources"⟩,
    ⟨"process-sources", "after:sources"⟩,
    ⟨"generate-resources", "resources"⟩,
    ⟨"process-resources", "after:resources"⟩,
    ⟨"process-classes", "after:compile"⟩,
    ⟨"generate-test-sources", "test-sources"⟩,
    ⟨"process-test-sources", "after:test-sources"⟩,
    ⟨"generate-test-resources", "test-resources"⟩,
    ⟨"process-test-resources", "after:test-resources"⟩,
    ⟨"process-test-classes", "after:test-compile"⟩,
    ⟨"prepare-package", "before:package"⟩,
    ⟨"pre-integration-test", "before:integration-test"⟩,
    ⟨"post-integration-test", "after:integration-test"⟩]

/-- The lifecycle that produces the documentation of a unit. -/
def site : Lifecycle where
  id := "site"
  phases := [
    { name := "site", bindings := [binding "maven-site-plugin" "3.12.1" "site"] },
    { name := "site-deploy"
      links := [follows "site"]
      bindings := [binding "maven-site-plugin" "3.12.1" "deploy"] }]
  aliases := [⟨"pre-site", "before:site"⟩, ⟨"post-site", "after:site"⟩]

/-- All standard lifecycles. -/
def lifecycles : List Lifecycle :=
  [clean, default, site]

/-- The standard packagings: for each of them the bindings of its phases. -/
def packagings : List (String × List (String × List String)) := [
  ("jar", [
    ("compile", [binding "maven-compiler-plugin" "3.14.0" "compile"]),
    ("deploy", [binding "maven-deploy-plugin" "3.1.4" "deploy"]),
    ("install", [binding "maven-install-plugin" "3.1.4" "install"]),
    ("package", [binding "maven-jar-plugin" "3.4.2" "jar"]),
    ("resources", [binding "maven-resources-plugin" "3.3.1" "resources"]),
    ("test", [binding "maven-surefire-plugin" "3.5.3" "test"]),
    ("test-compile", [binding "maven-compiler-plugin" "3.14.0" "testCompile"]),
    ("test-resources", [binding "maven-resources-plugin" "3.3.1" "testResources"])]),
  ("pom", [
    ("deploy", [binding "maven-deploy-plugin" "3.1.4" "deploy"]),
    ("install", [binding "maven-install-plugin" "3.1.4" "install"])])]

end PhasedBuild.Standard
