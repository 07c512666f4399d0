import Mounts.Editor
import Mounts.Keyed
import Mounts.Location
import Mounts.Main
import Mounts.Message.Basic
import Mounts.Message.Cursor
import Mounts.Message.Writer
import Mounts.Path
import Mounts.Reader
import Mounts.Registry
import Mounts.Session
import Mounts.Spec.Basic
import Mounts.Spec.Textual
import Mounts.Spec.Wire
import Mounts.Startup
import Mounts.Table
import Mounts.Text.Basic
import Mounts.Text.Percent
import Mounts.Tool
import Mounts.Proofs.Except
import Mounts.Proofs.Keyed
import Mounts.Proofs.Location
import Mounts.Proofs.Message.CleanWalk
import Mounts.Proofs.Message.Elements
import Mounts.Proofs.Message.Flaws
import Mounts.Proofs.Message.Reaching
import Mounts.Proofs.Message.ReadBack
import Mounts.Proofs.Message.Settling
import Mounts.Proofs.Message.Truncation
import Mounts.Proofs.Message.Writing
import Mounts.Proofs.Path.Canonical
import Mounts.Proofs.Path.Climbing
import Mounts.Proofs.Path.Covering
import Mounts.Proofs.Path.Nesting
import Mounts.Proofs.Registry.Accounts
import Mounts.Proofs.Registry.Agreeing
import Mounts.Proofs.Registry.Filing
import Mounts.Proofs.Registry.Handles
import Mounts.Proofs.Registry.Lasting
import Mounts.Proofs.Registry.Sound
import Mounts.Proofs.Session.Actions
import Mounts.Proofs.Session.Interning
import Mounts.Proofs.Session.Kept
import Mounts.Proofs.Session.Locating
import Mounts.Proofs.Session.Mounting
import Mounts.Proofs.Session.Refining
import Mounts.Proofs.Session.Routing
import Mounts.Proofs.Spec.Arguments
import Mounts.Proofs.Spec.Built
import Mounts.Proofs.Spec.Compact
import Mounts.Proofs.Spec.Digest
import Mounts.Proofs.Spec.Grammar
import Mounts.Proofs.Spec.Lenient
import Mounts.Proofs.Spec.Order
import Mounts.Proofs.Spec.Refusing
import Mounts.Proofs.Spec.Storing
import Mounts.Proofs.Spec.Wire
import Mounts.Proofs.Startup
import Mounts.Proofs.Table.Contents
import Mounts.Proofs.Table.Nearest
import Mounts.Proofs.Table.Routing
import Mounts.Proofs.Text.Bytes
import Mounts.Proofs.Text.Cutting
import Mounts.Proofs.Text.Escaping
import Mounts.Proofs.Text.Splitting
import Mounts.Proofs.Tool
