import EffectFusion.Blueprint
import EffectFusion.Catalog
import EffectFusion.Command.Arguments
import EffectFusion.Command.Disk
import EffectFusion.Command.Files
import EffectFusion.Command.Help
import EffectFusion.Command.Run
import EffectFusion.Config
import EffectFusion.Error
import EffectFusion.Essence.Basic
import EffectFusion.Essence.Extract
import EffectFusion.Essence.Rules
import EffectFusion.Fingerprint
import EffectFusion.Fused
import EffectFusion.History
import EffectFusion.Identifier
import EffectFusion.Json.Artifact
import EffectFusion.Json.Blueprint
import EffectFusion.Json.Codec
import EffectFusion.Json.Config
import EffectFusion.Json.Essence
import EffectFusion.Json.Fused
import EffectFusion.Json.Reader
import EffectFusion.Json.Report
import EffectFusion.Json.Value
import EffectFusion.Keyed
import EffectFusion.Main
import EffectFusion.Moderation
import EffectFusion.Number.Binary
import EffectFusion.Number.Digits
import EffectFusion.Number.Literal
import EffectFusion.Number.Notation
import EffectFusion.Number.Scaled
import EffectFusion.Policy
import EffectFusion.Profile
import EffectFusion.Proofs.Bounds
import EffectFusion.Proofs.Clamping
import EffectFusion.Proofs.Config
import EffectFusion.Proofs.Drafts
import EffectFusion.Proofs.Embedding
import EffectFusion.Proofs.Fingerprint
import EffectFusion.Proofs.Fusion
import EffectFusion.Proofs.Identifiers
import EffectFusion.Proofs.Innovations
import EffectFusion.Proofs.Integrations
import EffectFusion.Proofs.Interleaving
import EffectFusion.Proofs.Json.Codecs
import EffectFusion.Proofs.Json.Compressed
import EffectFusion.Proofs.Json.Configurations
import EffectFusion.Proofs.Json.Nulls
import EffectFusion.Proofs.Json.Reading
import EffectFusion.Proofs.Json.Spacing
import EffectFusion.Proofs.Json.Tokens
import EffectFusion.Proofs.Keyed
import EffectFusion.Proofs.Levels
import EffectFusion.Proofs.Moderation
import EffectFusion.Proofs.Number.Exact
import EffectFusion.Proofs.Number.Magnitude
import EffectFusion.Proofs.Number.Monotone
import EffectFusion.Proofs.Number.Order
import EffectFusion.Proofs.Number.Reading
import EffectFusion.Proofs.Number.Scores
import EffectFusion.Proofs.Number.Signs
import EffectFusion.Proofs.Ordering
import EffectFusion.Proofs.Ranking
import EffectFusion.Proofs.Reproduction
import EffectFusion.Proofs.Script.Arrows
import EffectFusion.Proofs.Script.Blanks
import EffectFusion.Proofs.Script.Boundary
import EffectFusion.Proofs.Script.Comparisons
import EffectFusion.Proofs.Script.Conditions
import EffectFusion.Proofs.Script.Edits
import EffectFusion.Proofs.Script.Elisions
import EffectFusion.Proofs.Script.Functions
import EffectFusion.Proofs.Script.Gaps
import EffectFusion.Proofs.Script.Gluing
import EffectFusion.Proofs.Script.Groups
import EffectFusion.Proofs.Script.Landmarks
import EffectFusion.Proofs.Script.Layout
import EffectFusion.Proofs.Script.Lengths
import EffectFusion.Proofs.Script.LineBreaks
import EffectFusion.Proofs.Script.Locality
import EffectFusion.Proofs.Script.Members
import EffectFusion.Proofs.Script.Neighbours
import EffectFusion.Proofs.Script.Nesting
import EffectFusion.Proofs.Script.Normalized
import EffectFusion.Proofs.Script.Numerals
import EffectFusion.Proofs.Script.Passes
import EffectFusion.Proofs.Script.Pieces
import EffectFusion.Proofs.Script.Preserved
import EffectFusion.Proofs.Script.Refinement
import EffectFusion.Proofs.Script.Rewrites
import EffectFusion.Proofs.Script.Settled
import EffectFusion.Proofs.Script.Spans
import EffectFusion.Proofs.Script.Sweeps
import EffectFusion.Proofs.Script.Tidied
import EffectFusion.Proofs.Selection
import EffectFusion.Proofs.Sequence
import EffectFusion.Proofs.Session
import EffectFusion.Proofs.Synthesis
import EffectFusion.Proofs.Template.Assignments
import EffectFusion.Proofs.Template.Blocks
import EffectFusion.Proofs.Template.Compression
import EffectFusion.Proofs.Template.Lines
import EffectFusion.Proofs.Template.Members
import EffectFusion.Proofs.Template.Nesting
import EffectFusion.Proofs.Template.Objects
import EffectFusion.Proofs.Template.Recovery
import EffectFusion.Proofs.Template.Refusals
import EffectFusion.Proofs.Template.Scripts
import EffectFusion.Proofs.Text.Characters
import EffectFusion.Proofs.Text.Matching
import EffectFusion.Proofs.Threads
import EffectFusion.Reconstruction
import EffectFusion.Report
import EffectFusion.Scalar
import EffectFusion.Script.Compression
import EffectFusion.Script.Lexer
import EffectFusion.Script.Reformulation
import EffectFusion.Script.Shortening
import EffectFusion.Script.Token
import EffectFusion.Script.Trivia
import EffectFusion.Studio
import EffectFusion.Tag
import EffectFusion.Template
import EffectFusion.Text.Alphabetic
import EffectFusion.Text.Class
import EffectFusion.Text.Digit
import EffectFusion.Text.Mark
import EffectFusion.Text.Pattern
import EffectFusion.Text.Quoted
import EffectFusion.Text.Recent
import EffectFusion.Text.Unseen
