import OrionBroker.Text
import OrionBroker.BsonPath
import OrionBroker.FieldEncoding
import OrionBroker.ForbiddenChars
import OrionBroker.CompoundValue
import OrionBroker.ContextAttribute
import OrionBroker.Location
import OrionBroker.EntityDoc
import OrionBroker.ContextElement
import OrionBroker.UpdateAttribute
import OrionBroker.ProcessAttributes
import OrionBroker.UpdateEntity
import OrionBroker.ProcessContextElement
import OrionBroker.RequestLoop
import OrionBroker.WrittenUpdate
import OrionBroker.EntityTurn
import OrionBroker.StoredForm
import OrionBroker.ElementTurns
import OrionBroker.AppendStrict
import OrionBroker.Replacement
import OrionBroker.AttrNames
import OrionBroker.Reflected
import OrionBroker.Answered
import OrionBroker.SharedRequest
import OrionBroker.ReportedOk
import OrionBroker.EntityLocation
import OrionBroker.KeyedList
import OrionBroker.NotifiedAttribute
import OrionBroker.NotifiedMerge
import OrionBroker.NotifiedEntity
import OrionBroker.CheckedTexts
import OrionBroker.AnchoredPattern
import OrionBroker.ServicePath
import OrionBroker.Subscription
import OrionBroker.SubCacheMatch
import OrionBroker.TriggeredSubscription
import OrionBroker.SubCacheSync
import OrionBroker.NotifiedSubscriptions
import OrionBroker.SubscribeContext
import OrionBroker.UpdateSubscription
import OrionBroker.StepRun
import OrionBroker.NotificationRun
import OrionBroker.ThrottledRun
import OrionBroker.NotificationCount
import OrionBroker.SubCacheList
import OrionBroker.StringFilter
import OrionBroker.UpdateContextResponse
import OrionBroker.QueryContextResponse
import OrionBroker.PostQueryContext
import OrionBroker.MongoUpdateContext
import OrionBroker.PostUpdateContext
import OrionBroker.MongoQuery
import OrionBroker.Registrations
import OrionBroker.SubscriptionRequests
import OrionBroker.SubscriptionReport
import OrionBroker.RestoredEntity
import OrionBroker.AreaScope
import OrionBroker.AvailabilityHeard
import OrionBroker.NoDeadlock
import OrionBroker.AttributeText
import OrionBroker.ConnectionPool
import OrionBroker.NotificationQueue
import OrionBroker.CursorLoops
import OrionBroker.Alarms
import OrionBroker.CurlContexts
import OrionBroker.ReportedCount
import OrionBroker.EscapedSlashes
import OrionBroker.BackslashFix
import OrionBroker.EatCompound
import OrionBroker.InitialNotification
import OrionBroker.OutageAlarms
import OrionBroker.AttributeParser
import OrionBroker.TypeListing
import OrionBroker.PayloadParser
import OrionBroker.EscapedString
import OrionBroker.OnChangeNotification
import OrionBroker.MixedIds
import OrionBroker.RestService
import OrionBroker.Coordinates
import OrionBroker.Stripping
import OrionBroker.StringFilterParser
import OrionBroker.FilterPieces
import OrionBroker.NumberText
import OrionBroker.AttributeNumbers
import OrionBroker.MergedAttribute
import OrionBroker.SearchPattern
import OrionBroker.IdQuery
import OrionBroker.ContextProviders
import OrionBroker.ContextAttributeVector
import OrionBroker.Duration
import OrionBroker.ParseUrl
import OrionBroker.EntityRender
import OrionBroker.Separators
import OrionBroker.Tag
import OrionBroker.AttributeRender
import OrionBroker.CompoundClone
import OrionBroker.ForcedStrings
import OrionBroker.ServicePathQuery
import OrionBroker.FilterClone
import OrionBroker.Cells
import OrionBroker.StringScan
import OrionBroker.TenantNames
import OrionBroker.TransactionIds
import OrionBroker.Pagination
import OrionBroker.AttributeSeparation
import OrionBroker.MongoQueryContext
import OrionBroker.FilterMeaning
import OrionBroker.StaticBuffer
import OrionBroker.IsoDate
import OrionBroker.EntityStore
import OrionBroker.EntityDates
import OrionBroker.Discovery
import OrionBroker.TypeAttributes
import OrionBroker.EntityReread
import OrionBroker.AvailabilityRun
import OrionBroker.SubscriptionList
