import DeviceUniqueness.Writer.Batching
import DeviceUniqueness.Chain.Unambiguous
import DeviceUniqueness.Chain.Owners
import DeviceUniqueness.Chain.Shapes
import DeviceUniqueness.Writer.GivenUp
import DeviceUniqueness.Writer.Devices
import DeviceUniqueness.Writer.InFlight
import DeviceUniqueness.Writer.Attempts
import DeviceUniqueness.Intake.Agreement
import DeviceUniqueness.Intake.Readers
import DeviceUniqueness.Intake.Availability
import DeviceUniqueness.Intake.Tokens
import DeviceUniqueness.Intake.FreeSlot
import DeviceUniqueness.Intake.Vouchers
import DeviceUniqueness.Auth.Provenance
import DeviceUniqueness.Auth.SignCount
import DeviceUniqueness.Attest.Revocation
import DeviceUniqueness.Queue.Order
import DeviceUniqueness.Queue.Cadence
import DeviceUniqueness.Queue.Fair
import DeviceUniqueness.Indexer.Speculation
import DeviceUniqueness.Indexer.Paging
import DeviceUniqueness.Indexer.Header
import DeviceUniqueness.RateLimit.Limiter
import DeviceUniqueness.RateLimit.Refunds
import DeviceUniqueness.Turn.Response
import DeviceUniqueness.Turn.Credentials
import DeviceUniqueness.Turn.Roots
import DeviceUniqueness.Tickets.Registered
import DeviceUniqueness.Tickets.Depth
import DeviceUniqueness.Tickets.Claims
