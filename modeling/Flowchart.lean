import Flowchart.Main
import Flowchart.Printing
import Flowchart.Proofs.Alignment
import Flowchart.Proofs.Faults
import Flowchart.Proofs.RoundTrip
import Flowchart.Proofs.Dependence
import Flowchart.Proofs.FirstRow
import Flowchart.Proofs.Relabelling
import Flowchart.Proofs.Routes
import Flowchart.Proofs.Bounds
import Flowchart.Proofs.Channels
import Flowchart.Proofs.Crossings
import Flowchart.Proofs.Arrowheads
import Flowchart.Proofs.Erasures
import Flowchart.Proofs.Mirror
import Flowchart.Proofs.BoxLayer
import Flowchart.Proofs.Overwriting
import Flowchart.Proofs.Cutting
import Flowchart.Proofs.Agreement
import Flowchart.Proofs.Margins
import Flowchart.Proofs.Writing
import Flowchart.Proofs.Extents
import Flowchart.Proofs.Reflection
import Flowchart.Proofs.Draining
import Flowchart.Proofs.Stepping
