import Weaver.Artifact
import Weaver.Binary.Codec
import Weaver.Bytes
import Weaver.CommandLine.Arguments
import Weaver.CommandLine.Run
import Weaver.CommandLine.Summary
import Weaver.Digest
import Weaver.Files.Error
import Weaver.Files.Path
import Weaver.Files.Store
import Weaver.Host.Engine
import Weaver.Host.Error
import Weaver.Host.Load
import Weaver.Host.Mode
import Weaver.Host.Recipe
import Weaver.Host.Registry
import Weaver.Host.Run
import Weaver.Host.State
import Weaver.Host.Text
import Weaver.Host.Universe
import Weaver.Host.Value
import Weaver.Json.Basic
import Weaver.Json.Lexer
import Weaver.Json.Reader
import Weaver.Json.Writer
import Weaver.Main
import Weaver.Module.Basic
import Weaver.Module.Binary
import Weaver.Module.Build
import Weaver.Module.Description
import Weaver.Module.Walk
import Weaver.PostCompile
import Weaver.Proofs.Artifact
import Weaver.Proofs.Artifact.Oversize
import Weaver.Proofs.Artifact.Reading
import Weaver.Proofs.Artifact.Truncation
import Weaver.Proofs.Binary.Laws
import Weaver.Proofs.Binary.Module
import Weaver.Proofs.CommandLine
import Weaver.Proofs.Engine.Blindness
import Weaver.Proofs.Engine.Bodies
import Weaver.Proofs.Engine.Careful
import Weaver.Proofs.Engine.Confined
import Weaver.Proofs.Engine.Embedding
import Weaver.Proofs.Engine.Follow
import Weaver.Proofs.Engine.Laws
import Weaver.Proofs.Engine.Levels
import Weaver.Proofs.Engine.Likeness
import Weaver.Proofs.Engine.Making
import Weaver.Proofs.Engine.Moments
import Weaver.Proofs.Engine.Outside
import Weaver.Proofs.Engine.Resolutions
import Weaver.Proofs.Engine.Rules
import Weaver.Proofs.Engine.Seclusion
import Weaver.Proofs.Engine.Soundness
import Weaver.Proofs.Engine.Unwinding
import Weaver.Proofs.Files.Store
import Weaver.Proofs.Host.Ancestry
import Weaver.Proofs.Host.Assignment
import Weaver.Proofs.Host.Catalogue
import Weaver.Proofs.Host.Conformance
import Weaver.Proofs.Host.Depths
import Weaver.Proofs.Host.Dormancy
import Weaver.Proofs.Host.Entries
import Weaver.Proofs.Host.Evolution
import Weaver.Proofs.Host.Fields
import Weaver.Proofs.Host.Filing
import Weaver.Proofs.Host.History
import Weaver.Proofs.Host.Hooks
import Weaver.Proofs.Host.Injectables
import Weaver.Proofs.Host.Injecting
import Weaver.Proofs.Host.LifeCycle
import Weaver.Proofs.Host.Loading
import Weaver.Proofs.Host.Moves
import Weaver.Proofs.Host.Noninterference
import Weaver.Proofs.Host.Outcome
import Weaver.Proofs.Host.Privacy
import Weaver.Proofs.Host.Probing
import Weaver.Proofs.Host.Reach
import Weaver.Proofs.Host.Scripts
import Weaver.Proofs.Host.Sessions
import Weaver.Proofs.Host.Subtyping
import Weaver.Proofs.Host.Transience
import Weaver.Proofs.Host.TypeSoundness
import Weaver.Proofs.Host.Unwinding
import Weaver.Proofs.Host.Validity
import Weaver.Proofs.Injection.Declarations
import Weaver.Proofs.Injection.Dependencies
import Weaver.Proofs.Injection.Exactness
import Weaver.Proofs.Injection.Growth
import Weaver.Proofs.Injection.Objects
import Weaver.Proofs.Injection.Resolving
import Weaver.Proofs.Injection.Standing
import Weaver.Proofs.Json.Numbers
import Weaver.Proofs.Json.Values
import Weaver.Proofs.Json.Words
import Weaver.Proofs.Lookups
import Weaver.Proofs.Module.Description
import Weaver.Proofs.PostCompile
import Weaver.Proofs.Uuid
import Weaver.Proofs.Weave.Additions
import Weaver.Proofs.Weave.Edits
import Weaver.Proofs.Weave.Effect
import Weaver.Proofs.Weave.Fallback
import Weaver.Proofs.Weave.FirstMatches
import Weaver.Proofs.Weave.Hierarchy
import Weaver.Proofs.Weave.Introspection
import Weaver.Proofs.Weave.Members
import Weaver.Proofs.Weave.Provenance
import Weaver.Proofs.Weave.Registration
import Weaver.Proofs.Weave.Repeated
import Weaver.Proofs.Weave.Resolution
import Weaver.Proofs.Weave.SynthesizedCode
import Weaver.Proofs.Weave.UserCode
import Weaver.Proofs.Weave.Verdict
import Weaver.Settings
import Weaver.Text.Blank
import Weaver.Text.Hidden
import Weaver.Text.Quoted
import Weaver.Toml.Basic
import Weaver.Toml.Reader
import Weaver.Toml.Scalar
import Weaver.Uuid
import Weaver.Uuid.Seeded
import Weaver.Weave.Basic
import Weaver.Weave.Error
import Weaver.Weave.Registrar
import Weaver.Weave.Synthesis
import Weaver.Weave.Targets
