import IamInventory.Main
import IamInventory.Proofs.Interruption
import IamInventory.Proofs.PolicyCoding
import IamInventory.Request
import IamInventory.Proofs.JsonGrammar
import IamInventory.Proofs.JsonReading
import IamInventory.Proofs.Calling
import IamInventory.Proofs.Listings
import IamInventory.Proofs.Enumeration
import IamInventory.Proofs.Extended
import IamInventory.Proofs.PolicyBlocks
import IamInventory.Proofs.UserKeys
import IamInventory.Proofs.Phases
import IamInventory.Proofs.Contracts
import IamInventory.Proofs.Completeness
import IamInventory.Proofs.Containment
import IamInventory.Proofs.Documents
import IamInventory.Proofs.Spelling
import IamInventory.Proofs.Collection
import IamInventory.Proofs.Printing
import IamInventory.Proofs.Startup
import IamInventory.Proofs.Program
import IamInventory.Proofs.Rounding
import IamInventory.Proofs.Turns
import IamInventory.Proofs.Rules
import IamInventory.Proofs.Polling
import IamInventory.Proofs.Draining
import IamInventory.Proofs.Utf8Reading
import IamInventory.Proofs.Unescaping
import IamInventory.Proofs.LatestUse
import IamInventory.Proofs.WriteBack
import IamInventory.Proofs.Overrides
import IamInventory.Proofs.Validity
import IamInventory.Proofs.ArnParts
import IamInventory.Proofs.PageMarkers
import IamInventory.Proofs.EntryOrder
import IamInventory.Proofs.Portraits
import IamInventory.Proofs.Fidelity
import IamInventory.Proofs.Histories
import IamInventory.Proofs.ReportHistory
import IamInventory.Proofs.RegistryHistory
