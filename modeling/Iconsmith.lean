import Iconsmith.Batch.Store
import Iconsmith.Main
import Iconsmith.Proofs.Batch.Conservation
import Iconsmith.Proofs.Batch.Outputs
import Iconsmith.Proofs.Drawable.Fields
import Iconsmith.Proofs.Drawable.Expressible
import Iconsmith.Proofs.PathData.Grammar
import Iconsmith.Proofs.PathData.RoundTrip
import Iconsmith.Proofs.Drawable.Elements
import Iconsmith.Proofs.Drawable.Paths
import Iconsmith.Proofs.Drawable.RoundTrip
import Iconsmith.Proofs.Outline.Explicit
import Iconsmith.Proofs.Source.Acceptance
import Iconsmith.Proofs.Naming.Identifiers
import Iconsmith.Proofs.Naming.Requests
import Iconsmith.Proofs.Batch.Isolation
import Iconsmith.Proofs.Batch.Names
import Iconsmith.Proofs.Batch.Links
import Iconsmith.Proofs.ImageVector.Recovery
import Iconsmith.Proofs.PathData.Faults
import Iconsmith.Proofs.Drawable.WellFormed
import Iconsmith.Proofs.Shape.Types
import Iconsmith.Proofs.Batch.Types
import Iconsmith.Proofs.Source.Finite
import Iconsmith.Proofs.ImageVector.Pieces
import Iconsmith.Proofs.ImageVector.Finite
import Iconsmith.Proofs.Batch.Containment
import Iconsmith.Proofs.Batch.Symbols
import Iconsmith.Proofs.ImageVector.Assets
import Iconsmith.Proofs.Shape.Assets
import Iconsmith.Proofs.Batch.Assets
import Iconsmith.Proofs.Decimal.Bounds
import Iconsmith.Proofs.Outline.Bounds
import Iconsmith.Proofs.Shape.Finite
import Iconsmith.Proofs.Batch.Writes
import Iconsmith.Proofs.Batch.Classes
import Iconsmith.Proofs.Batch.Deletions
import Iconsmith.Proofs.Batch.Scratch
import Iconsmith.Proofs.Batch.Declarations
import Iconsmith.Proofs.Batch.Imports
import Iconsmith.Proofs.Batch.Independence
import Iconsmith.Proofs.PathData.Stops
import Iconsmith.Proofs.Batch.Orders
import Iconsmith.Proofs.Batch.Modes
import Iconsmith.Proofs.Svg.Reread
import Iconsmith.Proofs.Color.Chains
import Iconsmith.Proofs.PathData.Concatenation
import Iconsmith.Proofs.Decimal.Undefined
import Iconsmith.Proofs.Drawable.Names
import Iconsmith.Proofs.Drawable.Radii
import Iconsmith.Proofs.Graphic.Contexts
import Iconsmith.Proofs.ImageVector.PlainGroups
import Iconsmith.Proofs.ImageVector.Names
import Iconsmith.Proofs.ImageVector.Needs
import Iconsmith.Proofs.ImageVector.Mentions
import Iconsmith.Proofs.Outline.Pens
import Iconsmith.Proofs.Outline.Nesting
import Iconsmith.Proofs.Outline.Ellipses
import Iconsmith.Proofs.Shape.Previews
import Iconsmith.Proofs.Drawable.Trees
import Iconsmith.Proofs.CommandLine.Summary
import Iconsmith.Proofs.ImageVector.Packages
import Iconsmith.Proofs.Decimal.Numerals
