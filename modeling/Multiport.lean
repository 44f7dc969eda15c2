import Multiport.Main
import Multiport.Proofs.Memory.Reading
import Multiport.Proofs.Memory.Soundness
import Multiport.Proofs.Memory.Storage
import Multiport.Proofs.Design.Reachable
import Multiport.Proofs.Design.Run
import Multiport.Proofs.Design.Composition
import Multiport.Proofs.Design.Failure
import Multiport.Proofs.Simulation.Serial
import Multiport.Proofs.Memory.Locality
import Multiport.Proofs.Memory.Serial
import Multiport.Proofs.Memory.Signature
import Multiport.Proofs.Memory.Pairing
import Multiport.Proofs.Memory.Agreement
import Multiport.Proofs.Memory.Refusal
import Multiport.Proofs.Memory.Spelling
import Multiport.Proofs.Memory.Inventory
import Multiport.Proofs.Simulation.Sizes
import Multiport.Proofs.Simulation.Totality
import Multiport.Proofs.Draft.Freshness
import Multiport.Proofs.Design.Order
import Multiport.Proofs.Simulation.Commit
import Multiport.Proofs.Simulation.Resolution
import Multiport.Proofs.Simulation.Commuting
import Multiport.Proofs.Simulation.Arrangement
import Multiport.Proofs.Simulation.Blocking
import Multiport.Proofs.Draft.Balance
import Multiport.Proofs.Draft.Placing
import Multiport.Proofs.Draft.Sections
import Multiport.Proofs.Memory.Partition
import Multiport.Proofs.Memory.Precedence
import Multiport.Proofs.Logic.Number
import Multiport.Proofs.Memory.Addressing
import Multiport.Proofs.Text.Words
import Multiport.Proofs.Netlist.Legible
import Multiport.Proofs.Memory.Legibility
import Multiport.Proofs.Memory.Chain
import Multiport.Proofs.Memory.Staging
