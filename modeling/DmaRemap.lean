import DmaRemap.Address
import DmaRemap.Text.Described
import DmaRemap.Action
import DmaRemap.Format
import DmaRemap.TableError
import DmaRemap.Pool
import DmaRemap.Table.Insert
import DmaRemap.Table.Remove
import DmaRemap.Table.Lookup
import DmaRemap.Table.Walk
import DmaRemap.Context.Bindings
import DmaRemap.Register.Capability
import DmaRemap.Register.Flags
import DmaRemap.Register.Invalidation
import DmaRemap.Register.RootPointer
import DmaRemap.Register.FaultStatus
import DmaRemap.Register.Mapped
import DmaRemap.Emulated
import DmaRemap.Bus
import DmaRemap.Controller.Faults
import DmaRemap.Controller.Domain
import DmaRemap.Proofs.Ownership
import DmaRemap.Proofs.Canonical
import DmaRemap.Proofs.Demand
import DmaRemap.Proofs.Effects
import DmaRemap.Proofs.Window
import DmaRemap.Proofs.BindingMap
import DmaRemap.Proofs.Invalidation
import DmaRemap.Proofs.Domains
import DmaRemap.Proofs.Platform
import DmaRemap.Proofs.Caches
import DmaRemap.Proofs.Iotlb
import DmaRemap.Proofs.Agreement
import DmaRemap.Proofs.FaultRing
import DmaRemap.Proofs.Tenancy
import DmaRemap.Proofs.Total
import DmaRemap.Proofs.HardwareBits
import DmaRemap.Proofs.Links
import DmaRemap.Proofs.LiveIds
import DmaRemap.Proofs.Refusal
import DmaRemap.Proofs.Allocation
import DmaRemap.Proofs.Listing
import DmaRemap.Proofs.Idempotence
import DmaRemap.Proofs.Emptying
import DmaRemap.Proofs.FaultDrain
import DmaRemap.Proofs.Codec
import DmaRemap.Proofs.Creation
import DmaRemap.Proofs.FaultGaps
import DmaRemap.Proofs.FaultWords
import DmaRemap.Proofs.Latency
import DmaRemap.Proofs.TakingOver
import DmaRemap.Proofs.Alignment
import DmaRemap.Proofs.Memory
