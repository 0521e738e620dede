import NetLab.Kube.Kind
import NetLab.Kube.Schema

/-!
# The shapes of the managed kinds

The schemas of what an object holds beside its type and metadata, for the kinds that the API server
defines itself.  A virtual machine belongs to an external operator and has no schema here: its
fields are kept as they are.
-/

namespace NetLab.Kube.Shapes

open Schema

/-- An empty object. -/
def emptyObject : Json := .object []

/-- An empty text. -/
def emptyText : Json := .string ""

/-- A name that is always written. -/
def named (name : String) : Field := always name .text emptyText

/-- Metadata, where it occurs inside an object. -/
def metadata : Schema := .record [
  opt "name" .text, opt "namespace" .text, opt "labels" texts, opt "annotations" texts,
  opt "resourceVersion" .text, opt "uid" .text]

def labelSelector : Schema := .record [
  opt "matchExpressions" (.list (.record [
    named "key", named "operator", opt "values" (.list .text)])),
  opt "matchLabels" texts]

def conditions : Schema := .list (.record [
  opt "lastProbeTime" .text, opt "lastTransitionTime" .text, opt "lastUpdateTime" .text,
  opt "message" .text, opt "observedGeneration" int64, opt "reason" .text, named "status",
  named "type"])

/-! ## Pods -/

def keyToPaths : Schema := .list (.record [named "key", opt "mode" int32, named "path"])

def fieldRef : Schema := .record [opt "apiVersion" .text, named "fieldPath"]

def resourceFieldRef : Schema := .record [
  opt "containerName" .text, opt "divisor" .text, named "resource"]

def downwardItems : Schema := .list (.record [
  opt "fieldRef" fieldRef, opt "mode" int32, named "path",
  opt "resourceFieldRef" resourceFieldRef])

def configMapVolume : Schema := .record [
  opt "defaultMode" int32, opt "items" keyToPaths, opt "name" .text, opt "optional" .bool]

def projection : Schema := .record [
  opt "items" keyToPaths, opt "name" .text, opt "optional" .bool]

def volume : Schema := .record [
  opt "configMap" configMapVolume,
  opt "downwardAPI" (.record [opt "defaultMode" int32, opt "items" downwardItems]),
  opt "emptyDir" (.record [opt "medium" .text, opt "sizeLimit" .text]),
  opt "hostPath" (.record [named "path", opt "type" .text]),
  named "name",
  opt "nfs" (.record [named "path", opt "readOnly" .bool, named "server"]),
  opt "persistentVolumeClaim" (.record [named "claimName", opt "readOnly" .bool]),
  opt "projected" (.record [
    opt "defaultMode" int32,
    opt "sources" (.list (.record [
      opt "configMap" projection,
      opt "downwardAPI" (.record [opt "items" downwardItems]),
      opt "secret" projection,
      opt "serviceAccountToken" (.record [
        opt "audience" .text, opt "expirationSeconds" int64, named "path"])]))]),
  opt "secret" (.record [
    opt "defaultMode" int32, opt "items" keyToPaths, opt "optional" .bool,
    opt "secretName" .text])]

def keyRef : Schema := .record [named "key", opt "name" .text, opt "optional" .bool]

def env : Schema := .list (.record [
  named "name",
  opt "value" .text,
  opt "valueFrom" (.record [
    opt "configMapKeyRef" keyRef, opt "fieldRef" fieldRef,
    opt "resourceFieldRef" resourceFieldRef, opt "secretKeyRef" keyRef])])

def envFrom : Schema := .list (.record [
  opt "configMapRef" (.record [opt "name" .text, opt "optional" .bool]),
  opt "prefix" .text,
  opt "secretRef" (.record [opt "name" .text, opt "optional" .bool])])

def httpGet : Schema := .record [
  opt "host" .text, opt "httpHeaders" (.list (.record [named "name", named "value"])),
  opt "path" .text, always "port" .intOrText (.int 0), opt "scheme" .text]

def tcpSocket : Schema := .record [opt "host" .text, always "port" .intOrText (.int 0)]

def exec : Schema := .record [opt "command" (.list .text)]

def probe : Schema := .record [
  opt "exec" exec, opt "failureThreshold" int32,
  opt "grpc" (.record [always "port" int32 (.int 0), opt "service" .text]),
  opt "httpGet" httpGet, opt "initialDelaySeconds" int32, opt "periodSeconds" int32,
  opt "successThreshold" int32, opt "tcpSocket" tcpSocket,
  opt "terminationGracePeriodSeconds" int64, opt "timeoutSeconds" int32]

def handler : Schema := .record [
  opt "exec" exec, opt "httpGet" httpGet, opt "tcpSocket" tcpSocket]

def seLinuxOptions : Schema := .record [
  opt "level" .text, opt "role" .text, opt "type" .text, opt "user" .text]

def seccompProfile : Schema := .record [opt "localhostProfile" .text, named "type"]

def securityContext : Schema := .record [
  opt "allowPrivilegeEscalation" .bool,
  opt "capabilities" (.record [opt "add" (.list .text), opt "drop" (.list .text)]),
  opt "privileged" .bool, opt "procMount" .text, opt "readOnlyRootFilesystem" .bool,
  opt "runAsGroup" int64, opt "runAsNonRoot" .bool, opt "runAsUser" int64,
  opt "seLinuxOptions" seLinuxOptions, opt "seccompProfile" seccompProfile]

def resources : Schema := .record [
  opt "claims" (.list (.record [named "name"])), opt "limits" texts, opt "requests" texts]

def container : Schema := .record [
  opt "args" (.list .text),
  opt "command" (.list .text),
  opt "env" env,
  opt "envFrom" envFrom,
  opt "image" .text,
  opt "imagePullPolicy" .text,
  opt "lifecycle" (.record [opt "postStart" handler, opt "preStop" handler]),
  opt "livenessProbe" probe,
  named "name",
  opt "ports" (.list (.record [
    always "containerPort" int32 (.int 0), opt "hostIP" .text, opt "hostPort" int32,
    opt "name" .text, opt "protocol" .text])),
  opt "readinessProbe" probe,
  opt "resizePolicy" (.list (.record [named "resourceName", named "restartPolicy"])),
  opt "resources" resources,
  opt "restartPolicy" .text,
  opt "securityContext" securityContext,
  opt "startupProbe" probe,
  opt "stdin" .bool,
  opt "stdinOnce" .bool,
  opt "terminationMessagePath" .text,
  opt "terminationMessagePolicy" .text,
  opt "tty" .bool,
  opt "volumeDevices" (.list (.record [named "devicePath", named "name"])),
  opt "volumeMounts" (.list (.record [
    named "mountPath", opt "mountPropagation" .text, named "name", opt "readOnly" .bool,
    opt "subPath" .text, opt "subPathExpr" .text])),
  opt "workingDir" .text]

def nodeSelectorTerm : Schema :=
  let requirements := Schema.list (.record [
    named "key", named "operator", opt "values" (.list .text)])
  .record [opt "matchExpressions" requirements, opt "matchFields" requirements]

def podAffinityTerm : Schema := .record [
  opt "labelSelector" labelSelector, opt "namespaceSelector" labelSelector,
  opt "namespaces" (.list .text), named "topologyKey"]

def podAffinity : Schema := .record [
  opt "preferredDuringSchedulingIgnoredDuringExecution" (.list (.record [
    always "podAffinityTerm" podAffinityTerm (.object [("topologyKey", emptyText)]),
    always "weight" int32 (.int 0)])),
  opt "requiredDuringSchedulingIgnoredDuringExecution" (.list podAffinityTerm)]

def affinity : Schema := .record [
  opt "nodeAffinity" (.record [
    opt "preferredDuringSchedulingIgnoredDuringExecution" (.list (.record [
      always "preference" nodeSelectorTerm emptyObject, always "weight" int32 (.int 0)])),
    opt "requiredDuringSchedulingIgnoredDuringExecution" (.record [
      always "nodeSelectorTerms" (.list nodeSelectorTerm) (.array [])])]),
  opt "podAffinity" podAffinity,
  opt "podAntiAffinity" podAffinity]

def podSpec : Schema := .record [
  opt "activeDeadlineSeconds" int64,
  opt "affinity" affinity,
  opt "automountServiceAccountToken" .bool,
  always "containers" (.list container) (.array []),
  opt "dnsConfig" (.record [
    opt "nameservers" (.list .text),
    opt "options" (.list (.record [opt "name" .text, opt "value" .text])),
    opt "searches" (.list .text)]),
  opt "dnsPolicy" .text,
  opt "enableServiceLinks" .bool,
  opt "hostAliases" (.list (.record [opt "hostnames" (.list .text), opt "ip" .text])),
  opt "hostIPC" .bool,
  opt "hostNetwork" .bool,
  opt "hostPID" .bool,
  opt "hostUsers" .bool,
  opt "hostname" .text,
  opt "imagePullSecrets" (.list (.record [opt "name" .text])),
  opt "initContainers" (.list container),
  opt "nodeName" .text,
  opt "nodeSelector" texts,
  opt "os" (.record [named "name"]),
  opt "overhead" texts,
  opt "preemptionPolicy" .text,
  opt "priority" int32,
  opt "priorityClassName" .text,
  opt "readinessGates" (.list (.record [named "conditionType"])),
  opt "restartPolicy" .text,
  opt "runtimeClassName" .text,
  opt "schedulerName" .text,
  opt "schedulingGates" (.list (.record [named "name"])),
  opt "securityContext" (.record [
    opt "fsGroup" int64, opt "fsGroupChangePolicy" .text, opt "runAsGroup" int64,
    opt "runAsNonRoot" .bool, opt "runAsUser" int64, opt "seLinuxOptions" seLinuxOptions,
    opt "seccompProfile" seccompProfile, opt "supplementalGroups" (.list int64),
    opt "sysctls" (.list (.record [named "name", named "value"]))]),
  opt "serviceAccount" .text,
  opt "serviceAccountName" .text,
  opt "setHostnameAsFQDN" .bool,
  opt "shareProcessNamespace" .bool,
  opt "subdomain" .text,
  opt "terminationGracePeriodSeconds" int64,
  opt "tolerations" (.list (.record [
    opt "effect" .text, opt "key" .text, opt "operator" .text, opt "tolerationSeconds" int64,
    opt "value" .text])),
  opt "topologySpreadConstraints" (.list (.record [
    opt "labelSelector" labelSelector, opt "matchLabelKeys" (.list .text),
    always "maxSkew" int32 (.int 0), opt "minDomains" int32, opt "nodeAffinityPolicy" .text,
    opt "nodeTaintsPolicy" .text, named "topologyKey", named "whenUnsatisfiable"])),
  opt "volumes" (.list volume)]

/-! ## The kinds -/

/-- The fields of a Deployment. -/
def deployment : List Field := [
  opt "spec" (.record [
    opt "minReadySeconds" int32,
    opt "paused" .bool,
    opt "progressDeadlineSeconds" int32,
    opt "replicas" int32,
    opt "revisionHistoryLimit" int32,
    always "selector" labelSelector emptyObject,
    opt "strategy" (.record [
      opt "rollingUpdate" (.record [opt "maxSurge" .intOrText, opt "maxUnavailable" .intOrText]),
      opt "type" .text]),
    always "template" (.record [opt "metadata" metadata, opt "spec" podSpec]) emptyObject]),
  opt "status" (.record [
    opt "availableReplicas" int32, opt "collisionCount" int32, opt "conditions" conditions,
    opt "observedGeneration" int64, opt "readyReplicas" int32, opt "replicas" int32,
    opt "unavailableReplicas" int32, opt "updatedReplicas" int32])]

/-- The fields of a Service. -/
def service : List Field := [
  opt "spec" (.record [
    opt "allocateLoadBalancerNodePorts" .bool,
    opt "clusterIP" .text,
    opt "clusterIPs" (.list .text),
    opt "externalIPs" (.list .text),
    opt "externalName" .text,
    opt "externalTrafficPolicy" .text,
    opt "healthCheckNodePort" int32,
    opt "internalTrafficPolicy" .text,
    opt "ipFamilies" (.list .text),
    opt "ipFamilyPolicy" .text,
    opt "loadBalancerClass" .text,
    opt "loadBalancerIP" .text,
    opt "loadBalancerSourceRanges" (.list .text),
    opt "ports" (.list (.record [
      opt "appProtocol" .text, opt "name" .text, opt "nodePort" int32,
      always "port" int32 (.int 0), opt "protocol" .text, opt "targetPort" .intOrText])),
    opt "publishNotReadyAddresses" .bool,
    opt "selector" texts,
    opt "sessionAffinity" .text,
    opt "sessionAffinityConfig" (.record [
      opt "clientIP" (.record [opt "timeoutSeconds" int32])]),
    opt "type" .text]),
  opt "status" (.record [
    opt "conditions" conditions,
    opt "loadBalancer" (.record [
      opt "ingress" (.list (.record [
        opt "hostname" .text, opt "ip" .text,
        opt "ports" (.list (.record [
          opt "error" .text, always "port" int32 (.int 0), named "protocol"]))]))])])]

/-- The fields of a ConfigMap. -/
def configMap : List Field := [
  opt "binaryData" (.map .bytes), opt "data" texts, opt "immutable" .bool]

def policyPeers : Schema := .list (.record [
  opt "ipBlock" (.record [named "cidr", opt "except" (.list .text)]),
  opt "namespaceSelector" labelSelector,
  opt "podSelector" labelSelector])

def policyPorts : Schema := .list (.record [
  opt "endPort" int32, opt "port" .intOrText, opt "protocol" .text])

/-- The fields of a NetworkPolicy. -/
def networkPolicy : List Field := [
  opt "spec" (.record [
    opt "egress" (.list (.record [opt "ports" policyPorts, opt "to" policyPeers])),
    opt "ingress" (.list (.record [opt "from" policyPeers, opt "ports" policyPorts])),
    always "podSelector" labelSelector emptyObject,
    opt "policyTypes" (.list .text)])]

/-- The fields of a kind; a virtual machine has no schema. -/
def ofKind? : Kind → Option (List Field)
  | .configMap => some configMap
  | .deployment => some deployment
  | .virtualMachine => none
  | .service => some service
  | .networkPolicy => some networkPolicy

end NetLab.Kube.Shapes
