import OrderApi.Core.Run
import OrderApi.Core.Program
import OrderApi.Core.Completion
import OrderApi.Core.Pool
import OrderApi.Core.Table
import OrderApi.Text.JsString
import OrderApi.Model.Entities
import OrderApi.Model.Store
import OrderApi.Model.StoreEffects
import OrderApi.Order.OrderService
import OrderApi.Order.OrderController
import OrderApi.Product.ProductService
import OrderApi.Rabbitmq.OrderConsumers
import OrderApi.System.OrderSystem
import OrderApi.System.Phases
import OrderApi.System.StatusFlow
import OrderApi.System.StockFlow
import OrderApi.System.OrderLines
import OrderApi.System.StockLedger
import OrderApi.Text.JsObject
import OrderApi.Common.Request
import OrderApi.Core.Cache
import OrderApi.Common.CacheService
import OrderApi.Common.CacheInterceptor
import OrderApi.Order.OrderList
import OrderApi.System.OrderListIsolation
import OrderApi.System.OrderListCoherence
import OrderApi.Product.ProductRequests
import OrderApi.System.ProductCache
import OrderApi.Prisma.DatabaseManagerService
import OrderApi.Rabbitmq.MigrationSql
import OrderApi.Model.Registry
import OrderApi.Rabbitmq.DatabaseCreationConsumer
import OrderApi.User.UserService
import OrderApi.System.TenancySystem
import OrderApi.System.TenantIsolation
import OrderApi.System.TenancyPhases
import OrderApi.System.Provisioning
import OrderApi.Prisma.Connections
import OrderApi.System.UserSystem
import OrderApi.Core.Tally
import OrderApi.System.OrderFilling
import OrderApi.System.OrderTotals
import OrderApi.System.OrderFreeze
import OrderApi.System.OrderOwnership
import OrderApi.Prisma.TenantMigration
import OrderApi.System.MigrationSystem
import OrderApi.System.MigrationLog
import OrderApi.Auth.AuthService
import OrderApi.Core.Sides
import OrderApi.System.ApiSystem
import OrderApi.System.AdminRole
import OrderApi.Prisma.PrismaService
import OrderApi.System.TenantRouting
import OrderApi.Core.Pieces
import OrderApi.System.MigrationRunners
import OrderApi.Common.RateLimitInterceptor
import OrderApi.System.RateLimits
import OrderApi.Core.FixedWindow
import OrderApi.Core.Slices
import OrderApi.System.Pagination
import OrderApi.System.PaymentAtomicity
import OrderApi.System.OrderCreation
import OrderApi.System.UserKeys
import OrderApi.System.Redelivery
import OrderApi.Text.SqlTokens
import OrderApi.System.QuotedNames
import OrderApi.Core.Chunks
import OrderApi.System.MigrationChunks
import OrderApi.System.StepCount
import OrderApi.Core.Infix
import OrderApi.System.UsersFilter
import OrderApi.Text.Url
import OrderApi.System.TenantUrls
import OrderApi.Rabbitmq.RabbitMQService
import OrderApi.System.Reconnection
import OrderApi.Core.Events
import OrderApi.System.MissingDatabase
import OrderApi.System.FailedMigrations
import OrderApi.Core.Evaluation
import OrderApi.System.TenantIndependence
import OrderApi.Text.JsonBody
import OrderApi.Common.LoggingInterceptor
import OrderApi.Core.Simulation
import OrderApi.Core.Delivery
import OrderApi.Text.JsonParse
import OrderApi.Rabbitmq.Messages
import OrderApi.System.Delivery
import OrderApi.System.TenantProjection
import OrderApi.Common.CacheTexts
import OrderApi.Core.Traces
import OrderApi.System.Authority
import OrderApi.System.Acknowledged
import OrderApi.System.RateLimitHeaders
import OrderApi.System.Sessions
import OrderApi.System.MigrationsAgain
import OrderApi.Core.Rely
import OrderApi.System.Fulfilment
import OrderApi.System.NewTenant
