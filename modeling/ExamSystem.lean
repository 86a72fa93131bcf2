import ExamSystem.Transactions
import ExamSystem.Rows
import ExamSystem.Table
import ExamSystem.Interleaving
import ExamSystem.ProofOutline
import ExamSystem.Json
import ExamSystem.Domain
import ExamSystem.GradingEngine
import ExamSystem.Store
import ExamSystem.StoreLemmas
import ExamSystem.GradingSound
import ExamSystem.AnswerProtocol
import ExamSystem.AnswerValidation
import ExamSystem.SaveSound
import ExamSystem.Lifecycle
import ExamSystem.GradingWorkset
import ExamSystem.Submission
import ExamSystem.Grading
import ExamSystem.Deadline
import ExamSystem.TimeGrants
import ExamSystem.Start
import ExamSystem.Commands
import ExamSystem.Changes
import ExamSystem.CommandsSound
import ExamSystem.Effects
import ExamSystem.AttemptRows
import ExamSystem.AggregateSound
import ExamSystem.Progress
import ExamSystem.Identity
import ExamSystem.StartSound
import ExamSystem.FreezeSound
import ExamSystem.WedgeSound
import ExamSystem.LedgerSound
import ExamSystem.GrantSound
import ExamSystem.RestoreSound
import ExamSystem.FinalResultSound
import ExamSystem.DeadlineSound
import ExamSystem.Episodes
import ExamSystem.EpisodeSound
import ExamSystem.Publish
import ExamSystem.ExamRoutes
import ExamSystem.PublishSound
import ExamSystem.BirthSound
import ExamSystem.PolicySound
import ExamSystem.Sessions
import ExamSystem.Chronology
import ExamSystem.GradedAtOnce
import ExamSystem.CandidateView
import ExamSystem.TwoRuns
import ExamSystem.HiddenResults
import ExamSystem.SubmitFlush
import ExamSystem.TakeExamPage
import ExamSystem.StoredAnswers
import ExamSystem.AutosaveSound
import ExamSystem.Accounts
import ExamSystem.AccountRepos
import ExamSystem.AccountRoutes
import ExamSystem.AccountWrites
import ExamSystem.AccountLocks
import ExamSystem.AccountCommits
import ExamSystem.AccountRuns
import ExamSystem.InvitationSound
import ExamSystem.ResetSound
import ExamSystem.AdminFences
import ExamSystem.AdminBudgets
import ExamSystem.AdminSound
import ExamSystem.EmailOutbox
import ExamSystem.OutboxSound
import ExamSystem.OutboxBudget
import ExamSystem.ForceSubmitSound
import ExamSystem.WorksetSound
import ExamSystem.Admissions
import ExamSystem.Ranks
import ExamSystem.AdmissionSound
import ExamSystem.WaitingRoom
import ExamSystem.QueueView
import ExamSystem.Outcomes
import ExamSystem.Statements
import ExamSystem.ProctorAssignments
import ExamSystem.ProctorSound
import ExamSystem.Incidents
import ExamSystem.IncidentCommands
import ExamSystem.IncidentChanges
import ExamSystem.IncidentOutline
import ExamSystem.IncidentLinks
import ExamSystem.SystemIncidents
import ExamSystem.IncidentReplays
import ExamSystem.IncidentVersions
import ExamSystem.ContentDocument
import ExamSystem.ContentLimits
import ExamSystem.ContentNormal
import ExamSystem.ContentSchema
import ExamSystem.ContentText
import ExamSystem.RichAnswers
import ExamSystem.RowLocks
import ExamSystem.AttemptLocks
import ExamSystem.LockOrderSound
import ExamSystem.QuestionValidation
import ExamSystem.CandidateInput
import ExamSystem.JsonText
import ExamSystem.KeyOrder
import ExamSystem.AnswerIdentity
import ExamSystem.ContentPreflight
import ExamSystem.PayloadEquality
import ExamSystem.OrderedMaps
import ExamSystem.SaveScopes
import ExamSystem.SaveLanes
import ExamSystem.SaveScopesSound
import ExamSystem.PendingGrants
import ExamSystem.PendingGrantsSound
import ExamSystem.AttemptRestore
import ExamSystem.AttemptRestoreSound
import ExamSystem.AttemptReceipts
import ExamSystem.AttemptReceiptsSound
import ExamSystem.Revocation
import ExamSystem.RevocationSound
import ExamSystem.PrimaryRows
import ExamSystem.PrimaryViews
import ExamSystem.PrimaryStages
import ExamSystem.PrimaryRoutes
import ExamSystem.PrimarySound
import ExamSystem.ArrayHeap
import ExamSystem.Presentation
import ExamSystem.PresentationSound
import ExamSystem.Pairs
import ExamSystem.ContentStrings
import ExamSystem.PlainText
import ExamSystem.Delimited
import ExamSystem.Csv
import ExamSystem.PolicyRuntime
import ExamSystem.DraftPatch
import ExamSystem.LegacyRecovery
import ExamSystem.RecoveryReads
import ExamSystem.Sweeps
import ExamSystem.ContentAdapter
import ExamSystem.Pages
import ExamSystem.ProctorTimeline
import ExamSystem.Capabilities
import ExamSystem.ScopeResolvers
import ExamSystem.CapabilityGates
import ExamSystem.Tenancy
import ExamSystem.ResolverSound
import ExamSystem.GateSound
import ExamSystem.GateRoles
import ExamSystem.TenantIsolation
import ExamSystem.ClientEventBuffer
import ExamSystem.EventRedaction
import ExamSystem.EventReferences
import ExamSystem.CandidateTake
import ExamSystem.CandidateTakeSound
import ExamSystem.ScoreResults
import ExamSystem.ScoreResultsSound
import ExamSystem.AdmissionViews
