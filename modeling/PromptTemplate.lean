import PromptTemplate.Main
import PromptTemplate.Proofs.Command.Rendering
import PromptTemplate.Proofs.Content.Lines
import PromptTemplate.Proofs.Content.PriorValues
import PromptTemplate.Proofs.Content.RoundTrip
import PromptTemplate.Proofs.Placeholder.Loosening
import PromptTemplate.Proofs.Placeholder.Offence
import PromptTemplate.Proofs.Placeholder.Placement
import PromptTemplate.Proofs.Placeholder.Printing
import PromptTemplate.Proofs.Placeholder.Tiling
import PromptTemplate.Proofs.Report.Heading
import PromptTemplate.Proofs.Response.Emptiness
import PromptTemplate.Proofs.Response.RoundTrip
import PromptTemplate.Proofs.Template.Agreement
import PromptTemplate.Proofs.Template.Appending
import PromptTemplate.Proofs.Template.Arrangement
import PromptTemplate.Proofs.Template.Comments
import PromptTemplate.Proofs.Template.Defaults
import PromptTemplate.Proofs.Template.Diagnosis
import PromptTemplate.Proofs.Template.Fixpoint
import PromptTemplate.Proofs.Template.Integers
import PromptTemplate.Proofs.Template.Leakage
import PromptTemplate.Proofs.Template.Numbering
import PromptTemplate.Proofs.Template.Rewriting
import PromptTemplate.Proofs.Template.Segments
import PromptTemplate.Proofs.Template.Sentinel
import PromptTemplate.Proofs.Template.Spans
import PromptTemplate.Proofs.Values.RoundTrip
