import Admission.Kind
import Admission.Kubernetes.Types

/-! The common built-in kinds. Of nodes, persistent volume claims, sets, jobs, ingresses and
autoscalers the status is left out, as members of other types are. -/

set_option autoImplicit false

namespace Admission.Kubernetes

inductive Kind where
  | pod
  | service
  | configMap
  | secret
  | nameSpace
  | node
  | serviceAccount
  | persistentVolumeClaim
  | deployment
  | statefulSet
  | daemonSet
  | replicaSet
  | job
  | cronJob
  | ingress
  | networkPolicy
  | role
  | roleBinding
  | clusterRole
  | clusterRoleBinding
  | horizontalPodAutoscaler
  deriving DecidableEq, Inhabited

namespace Kind

def all : List Kind :=
  [.pod, .service, .configMap, .secret, .nameSpace, .node, .serviceAccount,
    .persistentVolumeClaim, .deployment, .statefulSet, .daemonSet, .replicaSet, .job, .cronJob,
    .ingress, .networkPolicy, .role, .roleBinding, .clusterRole, .clusterRoleBinding,
    .horizontalPodAutoscaler]

def name : Kind → String
  | .pod => "Pod"
  | .service => "Service"
  | .configMap => "ConfigMap"
  | .secret => "Secret"
  | .nameSpace => "Namespace"
  | .node => "Node"
  | .serviceAccount => "ServiceAccount"
  | .persistentVolumeClaim => "PersistentVolumeClaim"
  | .deployment => "Deployment"
  | .statefulSet => "StatefulSet"
  | .daemonSet => "DaemonSet"
  | .replicaSet => "ReplicaSet"
  | .job => "Job"
  | .cronJob => "CronJob"
  | .ingress => "Ingress"
  | .networkPolicy => "NetworkPolicy"
  | .role => "Role"
  | .roleBinding => "RoleBinding"
  | .clusterRole => "ClusterRole"
  | .clusterRoleBinding => "ClusterRoleBinding"
  | .horizontalPodAutoscaler => "HorizontalPodAutoscaler"

def group : Kind → String
  | .deployment | .statefulSet | .daemonSet | .replicaSet => "apps"
  | .job | .cronJob => "batch"
  | .ingress | .networkPolicy => "networking.k8s.io"
  | .role | .roleBinding | .clusterRole | .clusterRoleBinding => "rbac.authorization.k8s.io"
  | .horizontalPodAutoscaler => "autoscaling"
  | _ => ""

def version : Kind → String
  | .horizontalPodAutoscaler => "v2"
  | _ => "v1"

def identity (kind : Kind) : GroupVersionKind :=
  ⟨kind.group, kind.version, kind.name⟩

def apiVersion (kind : Kind) : String :=
  kind.identity.apiVersion

def fields : Kind → List Field
  | .pod => [("spec", .optional, podSpec), ("status", .optional, podStatus)]
  | .service => [("spec", .optional, serviceSpec), ("status", .optional, serviceStatus)]
  | .configMap =>
    [("binaryData", .optional, .map .bytes), ("data", .optional, .map .string),
      ("immutable", .optional, .boolean)]
  | .secret =>
    [("data", .optional, .map .bytes), ("immutable", .optional, .boolean),
      ("stringData", .optional, .map .string), ("type", .optional, .string)]
  | .nameSpace => [("spec", .optional, namespaceSpec), ("status", .optional, namespaceStatus)]
  | .node => [("spec", .optional, nodeSpec)]
  | .serviceAccount =>
    [("automountServiceAccountToken", .optional, .boolean),
      ("imagePullSecrets", .optional, .list localObjectReference),
      ("secrets", .optional, .list objectReference)]
  | .persistentVolumeClaim => [("spec", .optional, persistentVolumeClaimSpec)]
  | .deployment => [("spec", .optional, deploymentSpec), ("status", .optional, deploymentStatus)]
  | .statefulSet => [("spec", .optional, statefulSetSpec)]
  | .daemonSet => [("spec", .optional, daemonSetSpec)]
  | .replicaSet => [("spec", .optional, replicaSetSpec)]
  | .job => [("spec", .optional, jobSpec)]
  | .cronJob => [("spec", .optional, cronJobSpec)]
  | .ingress => [("spec", .optional, ingressSpec)]
  | .networkPolicy => [("spec", .optional, networkPolicySpec)]
  | .role => [("rules", .optional, .list policyRule)]
  | .roleBinding => [("roleRef", .defaulted, roleRef), ("subjects", .optional, .list subject)]
  | .clusterRole =>
    [("aggregationRule", .optional, aggregationRule), ("rules", .optional, .list policyRule)]
  | .clusterRoleBinding =>
    [("roleRef", .defaulted, roleRef), ("subjects", .optional, .list subject)]
  | .horizontalPodAutoscaler => [("spec", .optional, horizontalPodAutoscalerSpec)]

/-- Every object says what it is; one that does not is taken to be of the kind. -/
def schema (kind : Kind) : Schema :=
  .record kind.name (insertField ("metadata", .defaulted, objectMeta)
    (insertField ("kind", .defaulted, .constant kind.name)
      (insertField ("apiVersion", .defaulted, .constant kind.apiVersion) kind.fields)))
where
  insertField (field : Field) (fields : List Field) : List Field :=
    fields.takeWhile (·.1 < field.1) ++ field :: fields.dropWhile (·.1 < field.1)

end Kind

end Admission.Kubernetes
