import BufferPool.Policy.Custom
import BufferPool.Proofs.Policy.Name
import BufferPool.Proofs.Pool.Delivery
import BufferPool.Proofs.Frame.Departure
import BufferPool.Session
import BufferPool.Settings
import BufferPool.Proofs.Pool.Pass
import BufferPool.Proofs.Pool.Room
import BufferPool.Proofs.Pool.Admission
import BufferPool.Proofs.Pool.Effect
import BufferPool.Proofs.Pool.Run
import BufferPool.Proofs.Pool.Structure
import BufferPool.Proofs.Pool.Accounts
import BufferPool.Proofs.Pool.Budgeting
import BufferPool.Proofs.Pool.Failure
import BufferPool.Proofs.Policy.Contract
import BufferPool.Proofs.Shelf.Basic
import BufferPool.Proofs.Shelf.Mirror
import BufferPool.Proofs.Shelf.Simulation
import BufferPool.Proofs.Policy.Cover
import BufferPool.Proofs.Shelf.Queue
import BufferPool.Proofs.Shelf.Recency
import BufferPool.Proofs.Shelf.Label
import BufferPool.Proofs.Shelf.Frequency
import BufferPool.Proofs.Shelf.Hits
import BufferPool.Proofs.Shelf.Hand
import BufferPool.Proofs.Pool.Safety
import BufferPool.Proofs.Pool.Twins
import BufferPool.Proofs.Shelf.Fresh
import BufferPool.Proofs.Pool.Tallies
import BufferPool.Proofs.Pool.Drift
import BufferPool.Proofs.Shelf.Tagged
import BufferPool.Proofs.Shelf.Retry
import BufferPool.Proofs.Pool.Anchor
import BufferPool.Proofs.Policy.Reprieve
import BufferPool.Proofs.Shelf.Inclusion
import BufferPool.Proofs.Pool.Dirt
import BufferPool.Proofs.Pool.Renewal
import BufferPool.Proofs.Pool.Confirmation
import BufferPool.Proofs.Pool.Shrinking
import BufferPool.Proofs.Pool.Order
import BufferPool.Proofs.Pool.Vacancy
import BufferPool.Proofs.Frame.Listing
import BufferPool.Proofs.Frame.Bench
import BufferPool.Proofs.Pool.Strewn
import BufferPool.Proofs.Setup.Sizing
import BufferPool.Proofs.Setup.Settings
import BufferPool.Proofs.Frame.Tenancy
import BufferPool.Proofs.Pool.Limit
