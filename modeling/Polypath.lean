import Polypath.Calls.Session
import Polypath.Main
import Polypath.Proofs.Outcome
import Polypath.Proofs.Wire.Readers
import Polypath.Proofs.Wire.Canonical
import Polypath.Proofs.Wire.Offsets
import Polypath.Proofs.Store.Changes
import Polypath.Proofs.Store.Requests
import Polypath.Proofs.Store.Handles
import Polypath.Proofs.Store.RawHandles
import Polypath.Proofs.Text.Ascii
import Polypath.Proofs.Transfer.Errands
import Polypath.Proofs.Transfer.Clients
import Polypath.Proofs.Transfer.Contents
import Polypath.Proofs.Calls.Effects
import Polypath.Proofs.Calls.Ledger
import Polypath.Proofs.Files.Tree
import Polypath.Proofs.Text.Base64Url
import Polypath.Proofs.Transfer.Trips
import Polypath.Proofs.Wire.Header
import Polypath.Proofs.Command.Outcomes
import Polypath.Proofs.Command.Reading
import Polypath.Proofs.Command.Writing
import Polypath.Proofs.Command.Copying
import Polypath.Proofs.Wire.Limits
import Polypath.Proofs.Transfer.Slots
import Polypath.Proofs.Calls.Warnings
import Polypath.Proofs.Decimal.Rounding
import Polypath.Proofs.Decimal.Shortest
import Polypath.Proofs.Decimal.Closeness
import Polypath.Proofs.Decimal.Scaling
import Polypath.Proofs.Decimal.Spelling
import Polypath.Proofs.Json.Documents
import Polypath.Proofs.Command.Dumping
import Polypath.Proofs.Wire.Damage
import Polypath.Proofs.Text.Canonical
import Polypath.Proofs.Wire.Layout
import Polypath.Proofs.Transfer.Texts
import Polypath.Proofs.Transfer.Capacity
import Polypath.Proofs.Command.Limits
import Polypath.Proofs.Json.Printed
import Polypath.Proofs.Json.Grammar
import Polypath.Proofs.Json.Values
import Polypath.Proofs.Json.Members
import Polypath.Proofs.Json.Rearranged
import Polypath.Proofs.Wire.Bounds
import Polypath.Proofs.Transfer.Addresses
import Polypath.Proofs.Journal.Acts
