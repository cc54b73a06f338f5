import LazyTensor.Proofs.Engine.Comparison
import LazyTensor.Proofs.Engine.Maps
import LazyTensor.Proofs.Engine.Products
import LazyTensor.Proofs.Engine.Sharing
import LazyTensor.Proofs.Kernel.Bounds
import LazyTensor.Proofs.Kernel.Drawing
import LazyTensor.Proofs.Kernel.Indexing
import LazyTensor.Proofs.Kernel.Literal
import LazyTensor.Proofs.Kernel.Movement
import LazyTensor.Proofs.Kernel.Orders
import LazyTensor.Proofs.Kernel.Readers
import LazyTensor.Proofs.Kernel.Safety
import LazyTensor.Proofs.Kernel.SourceUnit
import LazyTensor.Proofs.Layout.Paths
import LazyTensor.Proofs.Random.Mixing
import LazyTensor.Proofs.Session.Keeping
import LazyTensor.Proofs.Shape.Words
import LazyTensor.Proofs.Workspace.Prescription
