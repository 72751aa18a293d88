import Admission.Gateway.Certificate
import Admission.Json.Patch.Application
import Admission.Kubernetes.Kind
import Admission.Main
import Admission.Number.Shortest
import Admission.Proofs.Gateway.Agreement
import Admission.Proofs.Gateway.Answers
import Admission.Proofs.Gateway.Deadline
import Admission.Proofs.Gateway.Generations
import Admission.Proofs.Kind
import Admission.Proofs.Kubernetes.Nesting
import Admission.Proofs.Object.Coherence
import Admission.Proofs.Object.EntryEdit
import Admission.Proofs.Object.NetEffect
import Admission.Proofs.Object.Registry
import Admission.Proofs.Object.Relabelling
import Admission.Proofs.Object.Root
import Admission.Proofs.Object.Uniformity
import Admission.Proofs.Object.Update
import Admission.Proofs.Review.Content
import Admission.Proofs.Review.Encoding
import Admission.Proofs.Review.Payload
import Admission.Proofs.Webhook.AsReceived
import Admission.Proofs.Webhook.Cancellation
import Admission.Proofs.Webhook.Labelling
import Admission.Proofs.Webhook.Layers
import Admission.Proofs.Webhook.Nesting
import Admission.Proofs.Webhook.NetEffect
import Admission.Proofs.Webhook.RequiredLabels
import Admission.Proofs.Webhook.Transparency
import Admission.Proofs.Webhook.ValidatorChain
import Admission.Telemetry.Span
import Admission.Webhook.Rule
