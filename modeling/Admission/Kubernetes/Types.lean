import Admission.Kubernetes.Schema

/-! The types that objects of the common built-in kinds are made of, with part of their members. Left
out are affinity, probes, lifecycles, the security contexts of containers, the sources of environment
variables, all volumes that are not projected, disruption and update policies, egress rules, metrics
and the conditions and lists in statuses. What stands under a name that is left out is read as a
member of unknown name is: it may be anything, and it is not kept. -/

set_option autoImplicit false

namespace Admission.Kubernetes

def labelSelectorRequirement : Schema :=
  .record "LabelSelectorRequirement" [
    ("key", .defaulted, .string), ("operator", .defaulted, .string),
    ("values", .optional, .list .string)]

def labelSelector : Schema :=
  .record "LabelSelector" [
    ("matchExpressions", .optional, .list labelSelectorRequirement),
    ("matchLabels", .optional, .map .string)]

def aggregationRule : Schema :=
  .record "AggregationRule" [
    ("clusterRoleSelectors", .optional, .list labelSelector)]

def managedFieldsEntry : Schema :=
  .record "ManagedFieldsEntry" [
    ("apiVersion", .optional, .string), ("fieldsType", .optional, .string),
    ("fieldsV1", .optional, .anything), ("manager", .optional, .string),
    ("operation", .optional, .string), ("subresource", .optional, .string),
    ("time", .optional, .time)]

def ownerReference : Schema :=
  .record "OwnerReference" [
    ("apiVersion", .defaulted, .string), ("blockOwnerDeletion", .optional, .boolean),
    ("controller", .optional, .boolean), ("kind", .defaulted, .string),
    ("name", .defaulted, .string), ("uid", .defaulted, .string)]

def objectMeta : Schema :=
  .record "ObjectMeta" [
    ("annotations", .optional, .map .string), ("creationTimestamp", .optional, .time),
    ("deletionGracePeriodSeconds", .optional, .int64), ("deletionTimestamp", .optional, .time),
    ("finalizers", .optional, .list .string), ("generateName", .optional, .string),
    ("generation", .optional, .int64), ("labels", .optional, .map .string),
    ("managedFields", .optional, .list managedFieldsEntry), ("name", .optional, .string),
    ("namespace", .optional, .string), ("ownerReferences", .optional, .list ownerReference),
    ("resourceVersion", .optional, .string), ("selfLink", .optional, .string),
    ("uid", .optional, .string)]

def policyRule : Schema :=
  .record "PolicyRule" [
    ("apiGroups", .optional, .list .string), ("nonResourceURLs", .optional, .list .string),
    ("resourceNames", .optional, .list .string), ("resources", .optional, .list .string),
    ("verbs", .defaulted, .list .string)]

def roleRef : Schema :=
  .record "RoleRef" [
    ("apiGroup", .defaulted, .string), ("kind", .defaulted, .string),
    ("name", .defaulted, .string)]

def subject : Schema :=
  .record "Subject" [
    ("apiGroup", .optional, .string), ("kind", .defaulted, .string),
    ("name", .defaulted, .string), ("namespace", .optional, .string)]

def keyToPath : Schema :=
  .record "KeyToPath" [
    ("key", .defaulted, .string), ("mode", .optional, .int32), ("path", .defaulted, .string)]

def configMapProjection : Schema :=
  .record "ConfigMapProjection" [
    ("items", .optional, .list keyToPath), ("name", .defaulted, .string),
    ("optional", .optional, .boolean)]

def containerPort : Schema :=
  .record "ContainerPort" [
    ("containerPort", .defaulted, .int32), ("hostIP", .optional, .string),
    ("hostPort", .optional, .int32), ("name", .optional, .string),
    ("protocol", .optional, .string)]

def envVar : Schema :=
  .record "EnvVar" [
    ("name", .defaulted, .string), ("value", .optional, .string)]

def resourceRequirements : Schema :=
  .record "ResourceRequirements" [
    ("limits", .optional, .map .quantity), ("requests", .optional, .map .quantity)]

def volumeMount : Schema :=
  .record "VolumeMount" [
    ("mountPath", .defaulted, .string), ("mountPropagation", .optional, .string),
    ("name", .defaulted, .string), ("readOnly", .optional, .boolean),
    ("recursiveReadOnly", .optional, .string), ("subPath", .optional, .string),
    ("subPathExpr", .optional, .string)]

def container : Schema :=
  .record "Container" [
    ("args", .optional, .list .string), ("command", .optional, .list .string),
    ("env", .optional, .list envVar), ("image", .optional, .string),
    ("imagePullPolicy", .optional, .string), ("name", .defaulted, .string),
    ("ports", .optional, .list containerPort), ("resources", .optional, resourceRequirements),
    ("restartPolicy", .optional, .string), ("stdin", .optional, .boolean),
    ("stdinOnce", .optional, .boolean), ("terminationMessagePath", .optional, .string),
    ("terminationMessagePolicy", .optional, .string), ("tty", .optional, .boolean),
    ("volumeMounts", .optional, .list volumeMount), ("workingDir", .optional, .string)]

def localObjectReference : Schema :=
  .record "LocalObjectReference" [
    ("name", .defaulted, .string)]

def podSecurityContext : Schema :=
  .record "PodSecurityContext" [
    ("fsGroup", .optional, .int64), ("fsGroupChangePolicy", .optional, .string),
    ("runAsGroup", .optional, .int64), ("runAsNonRoot", .optional, .boolean),
    ("runAsUser", .optional, .int64), ("seLinuxChangePolicy", .optional, .string),
    ("supplementalGroups", .optional, .list .int64),
    ("supplementalGroupsPolicy", .optional, .string)]

def toleration : Schema :=
  .record "Toleration" [
    ("effect", .optional, .string), ("key", .optional, .string),
    ("operator", .optional, .string), ("tolerationSeconds", .optional, .int64),
    ("value", .optional, .string)]

def objectFieldSelector : Schema :=
  .record "ObjectFieldSelector" [
    ("apiVersion", .optional, .string), ("fieldPath", .defaulted, .string)]

def downwardAPIVolumeFile : Schema :=
  .record "DownwardAPIVolumeFile" [
    ("fieldRef", .optional, objectFieldSelector), ("mode", .optional, .int32),
    ("path", .defaulted, .string)]

def downwardAPIProjection : Schema :=
  .record "DownwardAPIProjection" [
    ("items", .optional, .list downwardAPIVolumeFile)]

def serviceAccountTokenProjection : Schema :=
  .record "ServiceAccountTokenProjection" [
    ("audience", .optional, .string), ("expirationSeconds", .optional, .int64),
    ("path", .defaulted, .string)]

def volumeProjection : Schema :=
  .record "VolumeProjection" [
    ("configMap", .optional, configMapProjection),
    ("downwardAPI", .optional, downwardAPIProjection),
    ("serviceAccountToken", .optional, serviceAccountTokenProjection)]

def projectedVolumeSource : Schema :=
  .record "ProjectedVolumeSource" [
    ("defaultMode", .optional, .int32), ("sources", .optional, .list volumeProjection)]

def volume : Schema :=
  .record "Volume" [
    ("name", .defaulted, .string), ("projected", .optional, projectedVolumeSource)]

def podSpec : Schema :=
  .record "PodSpec" [
    ("activeDeadlineSeconds", .optional, .int64),
    ("automountServiceAccountToken", .optional, .boolean),
    ("containers", .defaulted, .list container), ("dnsPolicy", .optional, .string),
    ("enableServiceLinks", .optional, .boolean), ("hostIPC", .optional, .boolean),
    ("hostNetwork", .optional, .boolean), ("hostPID", .optional, .boolean),
    ("hostUsers", .optional, .boolean), ("hostname", .optional, .string),
    ("imagePullSecrets", .optional, .list localObjectReference),
    ("initContainers", .optional, .list container), ("nodeName", .optional, .string),
    ("nodeSelector", .optional, .map .string), ("overhead", .optional, .map .quantity),
    ("preemptionPolicy", .optional, .string), ("priority", .optional, .int32),
    ("priorityClassName", .optional, .string), ("resources", .optional, resourceRequirements),
    ("restartPolicy", .optional, .string), ("runtimeClassName", .optional, .string),
    ("schedulerName", .optional, .string), ("securityContext", .optional, podSecurityContext),
    ("serviceAccount", .optional, .string), ("serviceAccountName", .optional, .string),
    ("setHostnameAsFQDN", .optional, .boolean), ("shareProcessNamespace", .optional, .boolean),
    ("subdomain", .optional, .string), ("terminationGracePeriodSeconds", .optional, .int64),
    ("tolerations", .optional, .list toleration), ("volumes", .optional, .list volume)]

def podTemplateSpec : Schema :=
  .record "PodTemplateSpec" [
    ("metadata", .optional, objectMeta), ("spec", .optional, podSpec)]

def jobSpec : Schema :=
  .record "JobSpec" [
    ("activeDeadlineSeconds", .optional, .int64), ("backoffLimit", .optional, .int32),
    ("backoffLimitPerIndex", .optional, .int32), ("completionMode", .optional, .string),
    ("completions", .optional, .int32), ("managedBy", .optional, .string),
    ("manualSelector", .optional, .boolean), ("maxFailedIndexes", .optional, .int32),
    ("parallelism", .optional, .int32), ("podReplacementPolicy", .optional, .string),
    ("selector", .optional, labelSelector), ("suspend", .optional, .boolean),
    ("template", .defaulted, podTemplateSpec), ("ttlSecondsAfterFinished", .optional, .int32)]

def jobTemplateSpec : Schema :=
  .record "JobTemplateSpec" [
    ("metadata", .optional, objectMeta), ("spec", .optional, jobSpec)]

def cronJobSpec : Schema :=
  .record "CronJobSpec" [
    ("concurrencyPolicy", .optional, .string), ("failedJobsHistoryLimit", .optional, .int32),
    ("jobTemplate", .defaulted, jobTemplateSpec), ("schedule", .defaulted, .string),
    ("startingDeadlineSeconds", .optional, .int64),
    ("successfulJobsHistoryLimit", .optional, .int32), ("suspend", .optional, .boolean),
    ("timeZone", .optional, .string)]

def crossVersionObjectReference : Schema :=
  .record "CrossVersionObjectReference" [
    ("apiVersion", .optional, .string), ("kind", .defaulted, .string),
    ("name", .defaulted, .string)]

def daemonSetSpec : Schema :=
  .record "DaemonSetSpec" [
    ("minReadySeconds", .optional, .int32), ("revisionHistoryLimit", .optional, .int32),
    ("selector", .defaulted, labelSelector), ("template", .defaulted, podTemplateSpec)]

def rollingUpdateDeployment : Schema :=
  .record "RollingUpdateDeployment" [
    ("maxSurge", .optional, .intOrString), ("maxUnavailable", .optional, .intOrString)]

def deploymentStrategy : Schema :=
  .record "DeploymentStrategy" [
    ("rollingUpdate", .optional, rollingUpdateDeployment), ("type", .optional, .string)]

def deploymentSpec : Schema :=
  .record "DeploymentSpec" [
    ("minReadySeconds", .optional, .int32), ("paused", .optional, .boolean),
    ("progressDeadlineSeconds", .optional, .int32), ("replicas", .optional, .int32),
    ("revisionHistoryLimit", .optional, .int32), ("selector", .defaulted, labelSelector),
    ("strategy", .optional, deploymentStrategy), ("template", .defaulted, podTemplateSpec)]

def deploymentStatus : Schema :=
  .record "DeploymentStatus" [
    ("availableReplicas", .optional, .int32), ("collisionCount", .optional, .int32),
    ("observedGeneration", .optional, .int64), ("readyReplicas", .optional, .int32),
    ("replicas", .optional, .int32), ("terminatingReplicas", .optional, .int32),
    ("unavailableReplicas", .optional, .int32), ("updatedReplicas", .optional, .int32)]

def serviceBackendPort : Schema :=
  .record "ServiceBackendPort" [
    ("name", .optional, .string), ("number", .optional, .int32)]

def ingressServiceBackend : Schema :=
  .record "IngressServiceBackend" [
    ("name", .defaulted, .string), ("port", .optional, serviceBackendPort)]

def ingressBackend : Schema :=
  .record "IngressBackend" [
    ("service", .optional, ingressServiceBackend)]

def httpIngressPath : Schema :=
  .record "HTTPIngressPath" [
    ("backend", .defaulted, ingressBackend), ("path", .optional, .string),
    ("pathType", .defaulted, .string)]

def httpIngressRuleValue : Schema :=
  .record "HTTPIngressRuleValue" [
    ("paths", .defaulted, .list httpIngressPath)]

def horizontalPodAutoscalerSpec : Schema :=
  .record "HorizontalPodAutoscalerSpec" [
    ("maxReplicas", .defaulted, .int32), ("minReplicas", .optional, .int32),
    ("scaleTargetRef", .defaulted, crossVersionObjectReference)]

def ingressRule : Schema :=
  .record "IngressRule" [
    ("host", .optional, .string), ("http", .optional, httpIngressRuleValue)]

def ingressTLS : Schema :=
  .record "IngressTLS" [
    ("hosts", .optional, .list .string), ("secretName", .optional, .string)]

def ingressSpec : Schema :=
  .record "IngressSpec" [
    ("defaultBackend", .optional, ingressBackend), ("ingressClassName", .optional, .string),
    ("rules", .optional, .list ingressRule), ("tls", .optional, .list ingressTLS)]

def loadBalancerStatus : Schema :=
  .record "LoadBalancerStatus" []

def namespaceSpec : Schema :=
  .record "NamespaceSpec" [
    ("finalizers", .optional, .list .string)]

def namespaceStatus : Schema :=
  .record "NamespaceStatus" [
    ("phase", .optional, .string)]

def networkPolicyPeer : Schema :=
  .record "NetworkPolicyPeer" [
    ("namespaceSelector", .optional, labelSelector), ("podSelector", .optional, labelSelector)]

def networkPolicyPort : Schema :=
  .record "NetworkPolicyPort" [
    ("endPort", .optional, .int32), ("port", .optional, .intOrString),
    ("protocol", .optional, .string)]

def networkPolicyIngressRule : Schema :=
  .record "NetworkPolicyIngressRule" [
    ("from", .optional, .list networkPolicyPeer), ("ports", .optional, .list networkPolicyPort)]

def networkPolicySpec : Schema :=
  .record "NetworkPolicySpec" [
    ("ingress", .optional, .list networkPolicyIngressRule),
    ("podSelector", .optional, labelSelector), ("policyTypes", .optional, .list .string)]

def taint : Schema :=
  .record "Taint" [
    ("effect", .defaulted, .string), ("key", .defaulted, .string),
    ("timeAdded", .optional, .time), ("value", .optional, .string)]

def nodeSpec : Schema :=
  .record "NodeSpec" [
    ("externalID", .optional, .string), ("podCIDR", .optional, .string),
    ("podCIDRs", .optional, .list .string), ("providerID", .optional, .string),
    ("taints", .optional, .list taint), ("unschedulable", .optional, .boolean)]

def objectReference : Schema :=
  .record "ObjectReference" [
    ("apiVersion", .optional, .string), ("fieldPath", .optional, .string),
    ("kind", .optional, .string), ("name", .optional, .string),
    ("namespace", .optional, .string), ("resourceVersion", .optional, .string),
    ("uid", .optional, .string)]

def volumeResourceRequirements : Schema :=
  .record "VolumeResourceRequirements" [
    ("limits", .optional, .map .quantity), ("requests", .optional, .map .quantity)]

def persistentVolumeClaimSpec : Schema :=
  .record "PersistentVolumeClaimSpec" [
    ("accessModes", .optional, .list .string),
    ("resources", .optional, volumeResourceRequirements), ("selector", .optional, labelSelector),
    ("storageClassName", .optional, .string), ("volumeAttributesClassName", .optional, .string),
    ("volumeMode", .optional, .string), ("volumeName", .optional, .string)]

def persistentVolumeClaim : Schema :=
  .record "PersistentVolumeClaim" [
    ("apiVersion", .defaulted, .constant "v1"),
    ("kind", .defaulted, .constant "PersistentVolumeClaim"),
    ("metadata", .defaulted, objectMeta), ("spec", .optional, persistentVolumeClaimSpec)]

def podStatus : Schema :=
  .record "PodStatus" [
    ("hostIP", .optional, .string), ("message", .optional, .string),
    ("nominatedNodeName", .optional, .string), ("observedGeneration", .optional, .int64),
    ("phase", .optional, .string), ("podIP", .optional, .string),
    ("qosClass", .optional, .string), ("reason", .optional, .string),
    ("resize", .optional, .string), ("startTime", .optional, .time)]

def replicaSetSpec : Schema :=
  .record "ReplicaSetSpec" [
    ("minReadySeconds", .optional, .int32), ("replicas", .optional, .int32),
    ("selector", .defaulted, labelSelector), ("template", .optional, podTemplateSpec)]

def servicePort : Schema :=
  .record "ServicePort" [
    ("appProtocol", .optional, .string), ("name", .optional, .string),
    ("nodePort", .optional, .int32), ("port", .defaulted, .int32),
    ("protocol", .optional, .string), ("targetPort", .optional, .intOrString)]

def serviceSpec : Schema :=
  .record "ServiceSpec" [
    ("allocateLoadBalancerNodePorts", .optional, .boolean), ("clusterIP", .optional, .string),
    ("clusterIPs", .optional, .list .string), ("externalIPs", .optional, .list .string),
    ("externalName", .optional, .string), ("externalTrafficPolicy", .optional, .string),
    ("healthCheckNodePort", .optional, .int32), ("internalTrafficPolicy", .optional, .string),
    ("ipFamilies", .optional, .list .string), ("ipFamilyPolicy", .optional, .string),
    ("loadBalancerClass", .optional, .string), ("loadBalancerIP", .optional, .string),
    ("loadBalancerSourceRanges", .optional, .list .string),
    ("ports", .optional, .list servicePort), ("publishNotReadyAddresses", .optional, .boolean),
    ("selector", .optional, .map .string), ("sessionAffinity", .optional, .string),
    ("trafficDistribution", .optional, .string), ("type", .optional, .string)]

def serviceStatus : Schema :=
  .record "ServiceStatus" [
    ("loadBalancer", .optional, loadBalancerStatus)]

def statefulSetSpec : Schema :=
  .record "StatefulSetSpec" [
    ("minReadySeconds", .optional, .int32), ("podManagementPolicy", .optional, .string),
    ("replicas", .optional, .int32), ("revisionHistoryLimit", .optional, .int32),
    ("selector", .defaulted, labelSelector), ("serviceName", .optional, .string),
    ("template", .defaulted, podTemplateSpec),
    ("volumeClaimTemplates", .optional, .list persistentVolumeClaim)]

end Admission.Kubernetes
