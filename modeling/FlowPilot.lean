import FlowPilot.AdmissionCleanup
import FlowPilot.AdmissionConfig
import FlowPilot.AdmissionGraph
import FlowPilot.AdmissionLimits
import FlowPilot.AdmissionOnce
import FlowPilot.AdmissionOutcome
import FlowPilot.AdmissionRejection
import FlowPilot.AdmissionRollback
import FlowPilot.AdmissionSplit
import FlowPilot.ExecutionAbsorbing
import FlowPilot.ExecutionAttempts
import FlowPilot.ExecutionCompletion
import FlowPilot.ExecutionConfluence
import FlowPilot.ExecutionCounting
import FlowPilot.ExecutionDelivery
import FlowPilot.ExecutionDraining
import FlowPilot.ExecutionMirror
import FlowPilot.ExecutionOutcomes
import FlowPilot.ExecutionProgress
import FlowPilot.ExecutionQueues
import FlowPilot.ExecutionRedelivery
import FlowPilot.ExecutionSafety
import FlowPilot.ExecutionSlots
import FlowPilot.ExecutionStart
import FlowPilot.RuntimeIsolation
import FlowPilot.RuntimeThreads
import FlowPilot.RuntimeWakeup
import FlowPilot.StoreCompletion
import FlowPilot.StoreConnection
import FlowPilot.StoreFraming
import FlowPilot.StoreStatuses
import FlowPilot.StoreTransactions
import FlowPilot.WorkflowFailure
import FlowPilot.WorkflowRepair
import FlowPilot.WorkflowVerdicts
