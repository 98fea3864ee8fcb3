import ResilientMesh.Interaction
import ResilientMesh.Pool
import ResilientMesh.QueryString
import ResilientMesh.PyNumber
import ResilientMesh.Billing
import ResilientMesh.ControlCenter
import ResilientMesh.Mesh
import ResilientMesh.Resending
import ResilientMesh.Ingress
import ResilientMesh.ChargeQuery
import ResilientMesh.CalculateAlone
import ResilientMesh.Prime
import ResilientMesh.Fibonacci
import ResilientMesh.FibonacciMemory
import ResilientMesh.Workload
import ResilientMesh.WorkloadExceptions
import ResilientMesh.FaultInjection
import ResilientMesh.Analytics
import ResilientMesh.ListMap
import ResilientMesh.Registry
import ResilientMesh.RegistryRuns
import ResilientMesh.JavaInt
import ResilientMesh.FibonacciInt
import ResilientMesh.PrimeInt
import ResilientMesh.PrimeThreads
import ResilientMesh.ControlCopies
import ResilientMesh.UrlEncode
import ResilientMesh.Forwarding
import ResilientMesh.BillingParameters
import ResilientMesh.ForwardedUrls
import ResilientMesh.LedgerHistory
import ResilientMesh.BillingHistory
import ResilientMesh.RegistryHistory
import ResilientMesh.RegistryLookup
import ResilientMesh.RegistryRaces
import ResilientMesh.Sweep
import ResilientMesh.SweepRaces
import ResilientMesh.SweepIteration
import ResilientMesh.SweepSpares
import ResilientMesh.RegistryKeys
import ResilientMesh.BillingRaces
import ResilientMesh.RelyGuarantee
import ResilientMesh.LostUpdates
import ResilientMesh.BillingLosses
import ResilientMesh.FaultRaces
import ResilientMesh.FaultToggles
import ResilientMesh.LedgerDoubts
import ResilientMesh.MeshAccounts
import ResilientMesh.Json
import ResilientMesh.JsonBodies
import ResilientMesh.Driver
import ResilientMesh.DriverPaths
import ResilientMesh.DriverRuns
import ResilientMesh.DriverProgress
import ResilientMesh.DriverCover
import ResilientMesh.Inlining
import ResilientMesh.Cluster
import ResilientMesh.ClusterWork
import ResilientMesh.ClusterResults
import ResilientMesh.ClusterAnswers
import ResilientMesh.PrimeThreads
import ResilientMesh.Resending
