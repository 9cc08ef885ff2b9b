import ManagedHost.Text.Lowercase
import ManagedHost.Text.Quoted
import ManagedHost.Path
import ManagedHost.Error
import ManagedHost.Config
import ManagedHost.Signature
import ManagedHost.Slot.Scalar
import ManagedHost.Metadata.Assembled
import ManagedHost.Metadata.Stored
import ManagedHost.Host.Records
import ManagedHost.Native.Library
import ManagedHost.Host.Basic
import ManagedHost.Op
import ManagedHost.Loading.Load
import ManagedHost.Reflection.Members
import ManagedHost.Invocation
import ManagedHost.Scenario.Setup
import ManagedHost.CommandLine.Run
import ManagedHost.Main
import ManagedHost.Proofs.Contract
import ManagedHost.Proofs.Loads
import ManagedHost.Proofs.Learning
import ManagedHost.Proofs.Reflection
import ManagedHost.Proofs.Registrations
import ManagedHost.Proofs.Running
import ManagedHost.Proofs.Commands
import ManagedHost.Proofs.Reached
import ManagedHost.Proofs.Initializers
import ManagedHost.Proofs.LoadHistory
import ManagedHost.Proofs.ExceptionChains
import ManagedHost.Proofs.Arguments
import ManagedHost.Proofs.BufferAccess
import ManagedHost.Proofs.SlotWidths
import ManagedHost.Proofs.Images
import ManagedHost.Proofs.Collections
import ManagedHost.Proofs.Marshalling
import ManagedHost.Proofs.NativeWords
import ManagedHost.Proofs.Faithful
import ManagedHost.Proofs.LoadOutcome
import ManagedHost.Proofs.Layouts
import ManagedHost.Proofs.Inheritance
import ManagedHost.Proofs.Informed
import ManagedHost.Proofs.Counterparts
import ManagedHost.Proofs.LayoutOutcome
import ManagedHost.Proofs.Refusals
import ManagedHost.Proofs.InitHistory
import ManagedHost.Proofs.Inquiries
import ManagedHost.Proofs.Dispatch
import ManagedHost.Proofs.CoreLibrary
import ManagedHost.Proofs.BodySlots
import ManagedHost.Proofs.Provenance
import ManagedHost.Proofs.Enclosing
import ManagedHost.Proofs.NestedClasses
import ManagedHost.Proofs.Lineage
import ManagedHost.Proofs.CircularLoads
import ManagedHost.Proofs.NestedLoads
import ManagedHost.Proofs.Forwarding
import ManagedHost.Proofs.LocalReferences
import ManagedHost.Proofs.Accessors
import ManagedHost.Proofs.AccessorSharing
