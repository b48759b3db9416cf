import DiaryMemory.MockConformance
import DiaryMemory.SqlConformance
import DiaryMemory.Succession
import DiaryMemory.Indexing
import DiaryMemory.Frame
import DiaryMemory.Removal
import DiaryMemory.Recovery
import DiaryMemory.Isolation
import DiaryMemory.Grading
import DiaryMemory.Provenance
import DiaryMemory.Planes
import DiaryMemory.Normalizing
import DiaryMemory.Capture
import DiaryMemory.Queries
import DiaryMemory.Handover
import DiaryMemory.Arrival
import DiaryMemory.Grouping
import DiaryMemory.Batches
import DiaryMemory.Deletion
import DiaryMemory.Retirement
import DiaryMemory.Interleaving
import DiaryMemory.Alone
import DiaryMemory.Deliveries
import DiaryMemory.Once
import DiaryMemory.Redelivery
import DiaryMemory.Segments
import DiaryMemory.SourceIndex
import DiaryMemory.Promotion
import DiaryMemory.Legs
import DiaryMemory.Packing
import DiaryMemory.Backoff
import DiaryMemory.Fixtures
import DiaryMemory.Lockstep
import DiaryMemory.Draining
import DiaryMemory.Concurrency
import DiaryMemory.Privacy
import DiaryMemory.Derivation
import DiaryMemory.Mocked
import DiaryMemory.Mirrors
import DiaryMemory.Providers
