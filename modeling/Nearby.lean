import Nearby.Bluetooth.Machine
import Nearby.Cache.Listing
import Nearby.Document.Forms
import Nearby.Neighbourhood
import Nearby.Radio.Paging
import Nearby.Proofs.PackedList
import Nearby.Proofs.Paging
import Nearby.Proofs.Utf8
import Nearby.Proofs.Characteristics.Fact
import Nearby.Proofs.Characteristics.RoundTrip
import Nearby.Proofs.Cache.Index
import Nearby.Proofs.Cache.Events
import Nearby.Proofs.Cache.Balance
import Nearby.Proofs.Scan.Coherent
import Nearby.Proofs.Scan.Connections
import Nearby.Proofs.Scan.Consistent
import Nearby.Proofs.Scan.Chronicle
import Nearby.Proofs.Scan.Hearing
import Nearby.Proofs.Scan.Stamps
import Nearby.Proofs.Scan.Failure
import Nearby.Proofs.Publisher.Handover
import Nearby.Proofs.Publisher.Plan
import Nearby.Proofs.Publisher.Presence
import Nearby.Proofs.Publisher.Convergence
import Nearby.Proofs.Publisher.Vouching
import Nearby.Proofs.Cache.Losses
import Nearby.Proofs.Cache.Impartial
import Nearby.Proofs.Publisher.Offer
import Nearby.Proofs.Characteristics.Gaps
import Nearby.Proofs.Scan.Visit
import Nearby.Proofs.Scan.Reading
import Nearby.Proofs.Cache.Sparing
import Nearby.Proofs.Agreement
import Nearby.Proofs.Healing
import Nearby.Proofs.Engine.Activity
import Nearby.Proofs.Engine.Shutdown
import Nearby.Proofs.Characteristics.Normal
import Nearby.Proofs.Content
import Nearby.Proofs.Cache.Difference
import Nearby.Proofs.Cache.Freshness
import Nearby.Proofs.Cache.Window
import Nearby.Proofs.Characteristics.Fields
import Nearby.Proofs.Scan.Course
import Nearby.Proofs.Publisher.Changes
import Nearby.Proofs.Publisher.Rounds
import Nearby.Proofs.Bluetooth.Offering
import Nearby.Proofs.Characteristics.Lenient
import Nearby.Proofs.Characteristics.Strict
import Nearby.Proofs.Stamp
